import LlmHardtest.Python.Value
set_option autoImplicit false

/-! Names that become parts of a path. -/

namespace Campaign
open Python Python.Regex

def slugBreak : Re := .set fun _ c =>
  !(('a' ≤ c && c ≤ 'z') || ('A' ≤ c && c ≤ 'Z') || ('0' ≤ c && c ≤ '9') || c == '_' || c == '.' ||
    c == '-')

def stripDashes (s : Str) : Str :=
  ((s.dropWhile (· == '-')).reverse.dropWhile (· == '-')).reverse

def slug (u : UnicodeData) (value : Str) : Str :=
  let value := stripDashes (sub u (.some slugBreak) ['-'] (strip value))
  if value.isEmpty then "model".toList else value

example : slug asciiData " a b/c- ".toList = "a-b-c".toList := by decide +kernel

end Campaign
