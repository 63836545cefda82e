/-!
# Code page 437

The oldest encoding of names in archives: one byte for each character.  The first
half is ASCII and the second half is a table of letters, box drawings and signs.
-/

namespace PackageResolution.CodePage437

/-- The characters of the bytes from 128 upward. -/
def upperHalf : List Char :=
  ("ÇüéâäàåçêëèïîìÄÅÉæÆôöòûùÿÖÜ¢£¥₧ƒ" ++
    "áíóúñÑªº¿⌐¬½¼¡«»░▒▓│┤╡╢╖╕╣║╗╝╜╛┐" ++
    "└┴┬├─┼╞╟╚╔╩╦╠═╬╧╨╤╥╙╘╒╓╫╪┘┌█▄▌▐▀" ++
    "αßΓπΣσµτΦΘΩδ∞φε∩≡±≥≤⌠⌡÷≈°∙·√ⁿ²■\u00a0").toList

/-- The character of a byte. -/
def char (byte : UInt8) : Char :=
  if byte < 0x80 then Char.ofNat byte.toNat
  else upperHalf.getD (byte.toNat - 0x80) '\uFFFD'

/-- The text of a sequence of bytes. -/
def decode (bytes : List UInt8) : String :=
  String.ofList (bytes.map char)

end PackageResolution.CodePage437
