import CallTrace.Text.Unprintable
import CallTrace.Text.Combining

/-!
# Escaped texts

A text between double quotes, with everything that could not be read back by eye written as an
escape: the usual controls by name, other unprintable characters by code point. Two styles are in
use, one for string literals in rendered source and one for developer-facing descriptions.
-/

namespace CallTrace.Text

/-- What a style of quoting decides. -/
structure EscapeStyle where
  /-- Whether the apostrophe is escaped. -/
  apostrophe : Bool
  /-- Whether a combining character is escaped wherever it stands, and not only at the start. -/
  everyCombining : Bool

/-- String literals in rendered source escape apostrophes, and combining characters only at the
start. -/
def EscapeStyle.literal : EscapeStyle := ⟨true, false⟩

/-- Descriptions leave apostrophes alone and escape every combining character. -/
def EscapeStyle.description : EscapeStyle := ⟨false, true⟩

/-- The code point of a character, in lower-case hexadecimal without padding. -/
def codePointEscape (c : Char) : List Char :=
  '\\' :: 'u' :: '\x7b' :: (Nat.toDigits 16 c.toNat ++ ['\x7d'])

/-- The letter that stands for a character after a backslash, if it has one. -/
def shortEscape (style : EscapeStyle) (c : Char) : Option Char :=
  if c = '\x00' then some '0'
  else if c = '\t' then some 't'
  else if c = '\n' then some 'n'
  else if c = '\r' then some 'r'
  else if c = '\\' then some '\\'
  else if c = '"' then some '"'
  else if c = '\'' && style.apostrophe then some '\''
  else none

/-- One character as it is written; `atStart` says whether it opens the text. -/
def escapeChar (style : EscapeStyle) (atStart : Bool) (c : Char) : List Char :=
  match shortEscape style c with
  | some letter => ['\\', letter]
  | none =>
    if isUnprintable c || (atStart || style.everyCombining) && isCombining c then
      codePointEscape c
    else [c]

/-- A whole text as it is written between the quotation marks. -/
def escape (style : EscapeStyle) : List Char → List Char
  | [] => []
  | c :: rest => escapeChar style true c ++ rest.flatMap (escapeChar style false)

/-- A text between double quotes. -/
def quoted (style : EscapeStyle) (s : String) : String :=
  String.ofList ('"' :: (escape style s.toList ++ ['"']))

end CallTrace.Text
