import ScopeLexer.Unicode.Category
import ScopeLexer.Unicode.WhiteSpace

/-!
# Character properties

Derived properties are their general categories and a short table of further characters.  Below
128 the common ones are decided without a table.
-/

namespace ScopeLexer.Unicode

/-- Alphabetic characters outside the letter and letter-number categories. -/
def otherAlphabetic : RangeTable := .ofRows [
  "837 1 618 14 1 1 1 2 1 2 1 1 72 11 48 13 1 7 16 1 101 7 4 4 2 2 4 1 35 1 30 16 102 11 101 2",
  "3 9 1 3 1 4 167 12 3 7 6 20 54 2 2 15 1 2 5 3 10 2 29 3 58 7 2 2 2 2 10 1 10 2 29 3 58 5 4 2",
  "2 2 4 1 30 2 3 1 11 3 58 8 1 3 1 2 21 2 22 3 4 3 58 7 2 2 2 2 9 2 10 2 30 1 59 5 3 3 1 3 10",
  "1 40 5 57 7 1 3 1 3 8 2 11 2 29 3 58 7 1 3 1 3 8 2 11 2 15 1 12 4 58 7 1 3 1 3 10 1 10 2 29",
  "3 75 6 1 1 1 8 18 2 61 1 2 7 18 1 99 1 2 6 1 2 16 1 163 19 9 11 1 36 110 12 1 1 2 4 23 4 4 3",
  "1 3 2 7 3 4 13 12 1 1 10 4 1652 2 30 2 30 2 30 2 66 19 188 2 34 1 118 12 4 9 222 5 57 10 2",
  "20 74 2 11 3 49 5 48 15 60 3 30 9 2 2 57 11 50 19 432 14 1729 52 2294 32 30836 8 34 2 354 1",
  "8 1 23 5 88 2 50 16 1 1 57 1 38 5 28 12 45 4 48 12 37 1 67 14 12 1 8 2 45 3 50 1 1 3 2 2 5 1",
  "44 5 5 1 237 8 20275 1 2135 5 1670 3 1 2 5 4 788 4 387 2 339 3 53 14 45 2 11 3 45 9 9 1 61 3",
  "36 12 18 2 57 3 48 13 14 2 92 9 2 1 6 1 2 1 157 10 23 4 58 7 2 2 2 2 10 1 10 2 209 13 1 3",
  "106 18 237 7 2 7 29 2 82 15 1 1 106 11 103 14 257 13 247 6 1 2 2 2 3 1 1 1 142 7 2 6 4 1 28",
  "10 42 5 1 4 18 11 46 14 407 8 1 7 83 22 1 14 122 6 3 1 1 2 1 3 1 1 3 1 66 5 1 2 1 4 348 4 9",
  "2 1 1 48 7 3 3 20494 1 1 55 7 4 93 2 19628 1 9057 7 1 17 2 7 1 2 1 5 100 1 2231 1 2024 26 6",
  "26 6 26"]

def otherUppercase : RangeTable := .ofRows [
  "8544 16 838 26 117856 26 6 26 6 26"]

def otherLowercase : RangeTable := .ofRows [
  "170 1 15 1 501 9 7 2 30 5 96 1 52 1 3457 1 3119 63 13 1 34 37 689 1 13 1 16 13 211 16 848 26",
  "1938 2 31262 2 210 1 129 3 3 2 866 4 9 1 23574 1 2 3 1 42 1 9 55413 62"]

def otherGraphemeExtend : RangeTable := .ofRows [
  "2494 1 24 1 358 1 24 1 102 1 24 1 234 1 18 2 103 1 24 1 119 1 15 1 3413 1 1238 1 4129 2",
  "53102 2 5022 1 24 1 344 1 12 1 241 1 896 1 47156 1 8 5 798381 96"]

def isAlphabetic (c : Char) : Bool :=
  if c.toNat < 128 then c.isAlpha
  else (Category.of c).major == 'L' || Category.of c == .letterNumber || otherAlphabetic.contains c

def isUppercase (c : Char) : Bool :=
  if c.toNat < 128 then c.isUpper
  else Category.of c == .uppercaseLetter || otherUppercase.contains c

def isLowercase (c : Char) : Bool :=
  if c.toNat < 128 then c.isLower
  else Category.of c == .lowercaseLetter || otherLowercase.contains c

def isDecimalDigit (c : Char) : Bool :=
  if c.toNat < 128 then c.isDigit else Category.of c == .decimalNumber

def isWordCharacter (c : Char) : Bool :=
  if c.toNat < 128 then c.isAlphanum || c == '_'
  else
    isAlphabetic c || isDecimalDigit c || (Category.of c).major == 'M'
      || Category.of c == .connectorPunctuation

def isGraphemeExtend (c : Char) : Bool :=
  if c.toNat < 128 then false
  else
    Category.of c == .nonspacingMark || Category.of c == .enclosingMark
      || otherGraphemeExtend.contains c

def isCased (c : Char) : Bool :=
  isUppercase c || isLowercase c || Category.of c == .titlecaseLetter

/-- Characters that do not separate a word's letters when its case is decided. -/
def isCaseIgnorable (c : Char) : Bool :=
  [0x27, 0x2E, 0x3A, 0xB7, 0x387, 0x55F, 0x5F4, 0x2018, 0x2019, 0x2024, 0x2027, 0xFE13, 0xFE52,
    0xFE55, 0xFF07, 0xFF0E, 0xFF1A].contains c.toNat
    || [Category.nonspacingMark, .enclosingMark, .format, .modifierLetter, .modifierSymbol].contains
        (Category.of c)

def isPrintable (c : Char) : Bool :=
  if c.toNat < 128 then 32 ≤ c.toNat && c.toNat < 127
  else
    !((Category.of c).major == 'C' || (Category.of c).major == 'Z')

end ScopeLexer.Unicode
