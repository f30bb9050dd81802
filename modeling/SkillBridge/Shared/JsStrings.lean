import Mathlib.Data.List.Basic
import SkillBridge.Shared.Errors

set_option autoImplicit false

/-! Strings of JavaScript as what they are, lists of UTF-16 code units; half a surrogate pair is one too. -/

namespace SkillBridge

abbrev JsString : Type := List UInt16

def utf16Char (c : Char) : JsString :=
  if c.toNat < 0x10000 then [.ofNat c.toNat]
  else [.ofNat (0xD800 + (c.toNat - 0x10000) / 0x400), .ofNat (0xDC00 + (c.toNat - 0x10000) % 0x400)]

def utf16 (s : String) : JsString := s.toList.flatMap utf16Char

namespace JsString

/-- No half of a surrogate pair is white space. -/
def isSpace (u : UInt16) : Bool := isJsSpace (Char.ofNat u.toNat)

def trim (s : JsString) : JsString := ((s.dropWhile isSpace).reverse.dropWhile isSpace).reverse

def padStart (targetLength : ℕ) (fill : UInt16) (s : JsString) : JsString := s.leftpad targetLength fill

def chars (s : JsString) : List JsString := s.map fun u => [u]

end JsString

end SkillBridge
