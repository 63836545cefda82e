import PackageResolution.Pattern.Basic

/-!
# Searching for patterns

A piece of a text is given by the places where it begins and ends.  The search works
on sets of places: from the set of all places where pieces can begin it computes the
set of all places where they can end.  So every way of matching is followed at once,
and a repetition stops when it reaches no new place.
-/

namespace PackageResolution.Pattern

/-- Places in a text, counted in characters from its start. -/
abbrev Places := List Nat

/-- All places of two sets. -/
def unite (a b : Places) : Places :=
  a ++ b.filter fun place => !a.contains place

/-- Whether the character before a place is in a set. -/
def before (text : Array Char) (place : Nat) (test : Char → Bool) : Bool :=
  place ≠ 0 && (text[place - 1]?).any test

/-- Whether the character after a place is in a set. -/
def after (text : Array Char) (place : Nat) (test : Char → Bool) : Bool :=
  (text[place]?).any test

/-- The test for word characters. -/
def wordTest (unicode : Bool) : Char → Bool :=
  (CharSet.word unicode).contains

/-- Whether a place meets a condition. -/
def meets (text : Array Char) (place : Nat) : Condition → Bool
  | .startOfText => place = 0
  | .endOfText => place = text.size
  | .startOfLine carriageReturns =>
      place = 0 || before text place (· == '\n') ||
        (carriageReturns && before text place (· == '\r') && !after text place (· == '\n'))
  | .endOfLine carriageReturns =>
      place = text.size ||
        (if carriageReturns then
          after text place (· == '\r') ||
            (after text place (· == '\n') && !before text place (· == '\r'))
        else after text place (· == '\n'))
  | .wordBoundary unicode =>
      before text place (wordTest unicode) != after text place (wordTest unicode)
  | .insideOrOutside unicode =>
      before text place (wordTest unicode) == after text place (wordTest unicode)
  | .wordStart unicode =>
      !before text place (wordTest unicode) && after text place (wordTest unicode)
  | .wordEnd unicode =>
      before text place (wordTest unicode) && !after text place (wordTest unicode)
  | .noWordBefore unicode => !before text place (wordTest unicode)
  | .noWordAfter unicode => !after text place (wordTest unicode)

/-- The places after exactly `count` steps. -/
def exactly (step : Places → Places) : Nat → Places → Places
  | 0, places => places
  | count + 1, places => if places = [] then [] else exactly step count (step places)

/-- The places after at most `count` steps: `reached` and those that can be reached
from `fresh`, the places of `reached` from which no step was made. -/
def upTo (step : Places → Places) : Nat → Places → Places → Places
  | 0, reached, _ => reached
  | count + 1, reached, fresh =>
      match (step fresh).filter fun place => !reached.contains place with
      | [] => reached
      | next => upTo step count (reached ++ next) next

/-- The places where pieces of a pattern end that begin at one of some places. -/
def ends (text : Array Char) : Pattern → Places → Places
  | .nothing, places => places
  | .one set, places =>
      places.filterMap fun place =>
        if after text place set.contains then some (place + 1) else none
  | .place condition, places => places.filter fun place => meets text place condition
  | .sequence first second, places => ends text second (ends text first places)
  | .choice first second, places => unite (ends text first places) (ends text second places)
  | .repeated pattern least most, places =>
      let step := fun places => (ends text pattern places).eraseDups
      let start := exactly step least places
      let count := match most with
        | some most => most - least
        | none => text.size + 1
      upTo step count start start

/-- Whether a piece of a pattern occurs in a text. -/
def occursIn (pattern : Pattern) (text : String) : Bool :=
  let chars := text.toList.toArray
  !(ends chars pattern (List.range (chars.size + 1))).isEmpty

end PackageResolution.Pattern
