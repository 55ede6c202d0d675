import GreenticOperator.Lib.Text

/-!
# Secret names

`src/secret_name/src/lib.rs`. A secret is stored under the canonical form of its name: lower-case
letters, digits and single underscores, with a letter or a digit at both ends.
-/

namespace SecretName

def normalizeChar (ch : Char) : Option Char :=
  if ch.isUpper then some ch.toLower
  else if ch.isLower || ch.isDigit || ch == '_' then some ch
  else if ch ∈ ['-', '.', ' ', '/'] then some '_'
  else none

/-- The loop over the characters, with whether the last one kept is an underscore. -/
def normalizeChars : Bool → List Char → List Char
  | _, [] => []
  | prevUnderscore, ch :: rest =>
    match normalizeChar ch with
    | none => normalizeChars prevUnderscore rest
    | some normalized =>
      if normalized = '_' then
        if prevUnderscore then normalizeChars true rest else normalized :: normalizeChars true rest
      else normalized :: normalizeChars false rest

def canonicalSecretName (raw : String) : String :=
  let result := String.ofList (normalizeChars false raw.toList)
  let trimmed := Text.trimEndMatches '_' (Text.trimStartMatches '_' result)
  if trimmed = "" then "secret" else trimmed

example : canonicalSecretName "UPPER--CASE.Underscore" = "upper_case_underscore" := by decide +kernel
example : canonicalSecretName "--" = "secret" := by decide +kernel

/-- The pieces between slashes, but for blank ones. -/
def keySegments (raw : String) : List String :=
  (Text.split '/' raw).filter fun segment => !(Text.trim segment).isEmpty

def canonicalSecretKeyPath (raw : String) : String :=
  Text.joinWith '/' ((keySegments raw).map canonicalSecretName)

end SecretName
