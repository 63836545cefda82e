import PackageResolution.Json.Decode
import PackageResolution.Proofs.Result

/-!
# Decoding what was written

A decoder undoes a writer if the document that is written for a value is decoded as the value.
Decoders of lists and of objects undo what their parts undo, and the fields of a record are
those that were written, whichever of them were left out.
-/

namespace PackageResolution

theorem Association.set_of_not_mem {κ α : Type} [BEq κ] [LawfulBEq κ] {key : κ} {value : α}
    {pairs : List (κ × α)} (unknown : key ∉ keys pairs) :
    set key value pairs = pairs ++ [(key, value)] := by
  induction pairs with
  | nil => rfl
  | cons pair rest inductionHypothesis =>
      obtain ⟨other, old⟩ := pair
      rw [keys_cons, List.mem_cons, not_or] at unknown
      have different : (other == key) = false := beq_eq_false_iff_ne.mpr (Ne.symm unknown.1)
      rw [set, different, inductionHypothesis unknown.2]
      rfl

namespace Json.Decoder

variable {α : Type} {decoder : Decoder α} {toJson : α → Json} {depth : Nat}

theorem deeper_eq (deep : 1 < depth) : deeper depth = .ok (depth - 1) := by
  rw [deeper, if_neg (by omega)]

/-- A list is decoded from the array of its items. -/
theorem list_array (deep : 1 < depth) {values : List α}
    (undoes : ∀ value ∈ values, decoder (depth - 1) (toJson value) = .ok value) :
    list decoder depth (.array (values.map toJson)) = .ok values := by
  rw [list, deeper_eq deep, Result.ok_bind]
  induction values with
  | nil => rfl
  | cons value values inductionHypothesis =>
      have more := inductionHypothesis fun other among =>
        undoes other (List.mem_cons_of_mem _ among)
      rw [List.map_cons, List.mapM_cons, undoes value List.mem_cons_self, more]
      rfl

/-- Members are put behind those that were read before. -/
theorem foldlM_members (earlier : List (String × α)) {entries : List (String × α)}
    (apart : (Association.keys (earlier ++ entries)).Nodup)
    (undoes : ∀ entry ∈ entries, decoder depth (toJson entry.2) = .ok entry.2) :
    (entries.map fun entry => (some entry.1, toJson entry.2)).foldlM
      (fun values member => do
        let name ← text depth (.string member.1)
        return Association.set name (← decoder depth member.2) values) earlier =
      (.ok (earlier ++ entries) : Except String _) := by
  induction entries generalizing earlier with
  | nil => rw [List.append_nil]; rfl
  | cons entry entries inductionHypothesis =>
      have unknown : entry.1 ∉ Association.keys earlier := by
        rw [Association.keys, List.map_append, List.nodup_append] at apart
        exact fun among => apart.2.2 _ among _ List.mem_cons_self rfl
      have first := undoes entry List.mem_cons_self
      have more := @inductionHypothesis (earlier ++ [entry])
        (by rwa [List.append_assoc, List.singleton_append])
        fun other among => undoes other (List.mem_cons_of_mem _ among)
      rw [List.append_assoc, List.singleton_append] at more
      rw [List.map_cons, List.foldlM_cons, ← more]
      simp only [text, first, Result.ok_bind, Association.set_of_not_mem unknown]
      rfl

/-- Values by name are decoded from the object of them, in their order. -/
theorem map_ofMembers (deep : 1 < depth) {entries : List (String × α)}
    (apart : (Association.keys entries).Nodup)
    (undoes : ∀ entry ∈ entries, decoder (depth - 1) (toJson entry.2) = .ok entry.2) :
    map decoder depth (.ofMembers (entries.map fun entry => (entry.1, toJson entry.2))) =
      .ok entries := by
  rw [ofMembers, List.map_map, map, deeper_eq deep, Result.ok_bind]
  exact foldlM_members [] apart undoes

/-! ## Records -/

/-- The members of a record are its own, if their names are among those of its fields. -/
theorem ownMembers_of_sublist {names : List String} {members : List (String × Json)}
    (among : (Association.keys members).Sublist names) (apart : names.Nodup) :
    ownMembers names (members.map fun member => (some member.1, member.2)) = .ok members := by
  have within : ∀ member ∈ members, member.1 ∈ names :=
    fun member known => among.subset (List.mem_map_of_mem known)
  have apart : (Association.keys members).Nodup := apart.sublist among
  clear among
  induction members with
  | nil => rfl
  | cons member members inductionHypothesis =>
      rw [Association.keys_cons, List.nodup_cons] at apart
      have more := inductionHypothesis
        (fun other known => within other (List.mem_cons_of_mem _ known)) apart.2
      have alone : members.any (fun other => other.1 == member.1) = false := by
        rw [List.any_eq_false]
        intro other known same
        exact apart.1 (beq_iff_eq.mp same ▸ List.mem_map_of_mem known)
      rw [List.map_cons, ownMembers, more, Result.ok_bind, if_pos (within member List.mem_cons_self),
        alone]
      rfl

/-- The fields of a record are the members that were written. -/
theorem fields_ofMembers {names : List String} {members : List (String × Json)}
    (among : (Association.keys members).Sublist names) (apart : names.Nodup)
    (deep : 1 < depth) :
    fields names depth (.ofMembers members) = .ok ⟨depth - 1, members⟩ := by
  rw [ofMembers, fields, namedFields, deeper_eq deep, Result.ok_bind,
    ownMembers_of_sublist among apart]
  · rfl
  · intro items same
    exact nomatch same

section Fields

variable {given : List (String × Json)} {name : String} {json : Json} {value default : α}

/-- A field that is given is decoded. -/
theorem required_eq_ok (found : given.lookup name = some json)
    (read : decoder depth json = .ok value) :
    Fields.required ⟨depth, given⟩ name decoder = .ok value := by
  rw [Fields.required]
  simp only [found, read]

theorem optional_eq_ok (found : given.lookup name = some json)
    (read : decoder depth json = .ok value) :
    Fields.optional ⟨depth, given⟩ name decoder default = .ok value := by
  rw [Fields.optional]
  simp only [found, read]

theorem optional_of_missing (missing : given.lookup name = none) :
    Fields.optional ⟨depth, given⟩ name decoder default = .ok default := by
  rw [Fields.optional]
  simp only [missing]

/-- A text that is absent is left out. -/
theorem optional_text {content : Option String}
    (found : given.lookup name = content.map ofText) :
    Fields.optional ⟨depth, given⟩ name (nullable text) none = .ok content := by
  cases content with
  | none => exact optional_of_missing found
  | some content => exact optional_eq_ok found rfl

end Fields

end Json.Decoder

end PackageResolution
