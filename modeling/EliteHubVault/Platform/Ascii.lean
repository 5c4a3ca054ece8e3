import EliteHubVault.Platform.Json

/-!
# The platform on ASCII texts

An executable platform over the rational numbers. It lowers and compares texts as
JavaScript and `citext` do on ASCII and has the ranges of the generated insert schemas:
safe integers, 48-bit doubles and 16-bit integers.
-/

set_option autoImplicit false

namespace EliteHubVault

/-- The text with its letters in lower case. -/
def asciiLower (text : String) : String := String.ofList (text.toList.map Char.toLower)

/-- The text without white space at both ends. -/
def asciiTrim (text : String) : String :=
  String.ofList
    (((text.toList.dropWhile Char.isWhitespace).reverse.dropWhile Char.isWhitespace).reverse)

def asciiPlatform : Platform ℚ where
  toLowerCase := asciiLower
  trim := asciiTrim
  citext := asciiLower
  isBigint value := value.den = 1 ∧ |value| ≤ 9007199254740991
  isDouble value := -140737488355328 ≤ value ∧ value ≤ 140737488355327
  isSmallint value := value.den = 1 ∧ -32768 ≤ value ∧ value ≤ 32767

end EliteHubVault
