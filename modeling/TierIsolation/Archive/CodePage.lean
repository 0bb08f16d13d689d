/-!
# Member names in code page 437

The names in a zip file that are not marked as UTF-8 are written in code page 437: a byte below 128
is the ASCII character of that number, the others are listed in `upper`.
-/

namespace TierIsolation.Archive.CodePage

/-- The characters of the bytes from 128 on. -/
def upper : List Char :=
  ("ÇüéâäàåçêëèïîìÄÅ" ++ "ÉæÆôöòûùÿÖÜ¢£¥₧ƒ" ++ "áíóúñÑªº¿⌐¬½¼¡«»" ++ "░▒▓│┤╡╢╖╕╣║╗╝╜╛┐" ++
    "└┴┬├─┼╞╟╚╔╩╦╠═╬╧" ++ "╨╤╥╙╘╒╓╫╪┘┌█▄▌▐▀" ++ "αßΓπΣσµτΦΘΩδ∞φε∩" ++ "≡±≥≤⌠⌡÷≈°∙·√ⁿ²■\u00A0").toList

def decodeByte (b : UInt8) : Char :=
  if b < 128 then Char.ofNat b.toNat else (upper[b.toNat - 128]?).getD ' '

def decode (bytes : List UInt8) : List Char := bytes.map decodeByte

end TierIsolation.Archive.CodePage
