import CallTrace.Text.Blank

/-!
# Lists of keywords

A setting such as `stack, Traceback` is a list of keywords between commas. White space around a
keyword and the case of its letters do not matter.
-/

namespace CallTrace.Text

/-- The parts of a text between separators, empty ones included. -/
def splitOn (sep : Char) : List Char → List (List Char)
  | [] => [[]]
  | c :: rest =>
    if c = sep then [] :: splitOn sep rest
    else match splitOn sep rest with
      | [] => [[c]]
      | part :: parts => (c :: part) :: parts

/-- The lower case of a character, as far as it is an ASCII letter. Besides the capitals only the
Kelvin sign has one; every other character stays as it is, so that comparing with an ASCII word
gives the same answer as after full lower-casing. -/
def lowerLetter (c : Char) : Char :=
  if 'A' ≤ c ∧ c ≤ 'Z' then Char.ofNat (c.toNat + 32)
  else if c = '\u212a' then 'k'
  else c

/-- A part reduced to the keyword it spells. -/
def keyword (part : List Char) : List Char :=
  (trim part).map lowerLetter

/-- The keywords of a comma-separated list, in order. -/
def keywords (s : String) : List (List Char) :=
  (splitOn ',' s.toList).map keyword

end CallTrace.Text
