import MonkeySyntax.Json.Basic
import MonkeySyntax.Text.Hex

/-!
# JSON text

`Json.render` writes a JSON value with one item a line, each level indented by two more
spaces.  Empty lists and records are written on one line.  All characters but the
printable ones of ASCII are escaped, those beyond U+FFFF as a pair of surrogates.
-/

namespace MonkeySyntax.Json

/-- The escape sequence of a code unit. -/
def escapeUnit (unit : Nat) : String :=
  String.ofList ('\\' :: 'u' :: Text.hex 4 unit)

/-- A code point as one escape sequence, or as two beyond U+FFFF. -/
def escapeCode (code : Nat) : String :=
  if code < 0x10000 then
    escapeUnit code
  else
    escapeUnit (0xd800 + (code - 0x10000) / 1024)
      ++ escapeUnit (0xdc00 + (code - 0x10000) % 1024)

/-- A character as it is written within quotation marks. -/
def escapeChar : Char → String
  | '"' => "\\\""
  | '\\' => "\\\\"
  | '\n' => "\\n"
  | '\r' => "\\r"
  | '\t' => "\\t"
  | '\x08' => "\\b"
  | '\x0c' => "\\f"
  | c => if 0x20 ≤ c.toNat && c.toNat ≤ 0x7e then String.ofList [c] else escapeCode c.toNat

/-- A text within quotation marks. -/
def quote (text : String) : String :=
  "\"" ++ String.join (text.toList.map escapeChar) ++ "\""

/-- The start of a line at a level. -/
def newline (level : Nat) : String :=
  String.ofList ('\n' :: List.replicate (2 * level) ' ')

/-- Items between two brackets, each on a line of its own one level further in, with commas
between them; nothing between the brackets if there are no items. -/
def enclose (level : Nat) (opening closing : String) (items : List String) : String :=
  if items.isEmpty then
    opening ++ closing
  else
    opening ++ newline (level + 1) ++ String.intercalate ("," ++ newline (level + 1)) items
      ++ newline level ++ closing

mutual

/-- A value whose first line is already indented to a level. -/
def renderAt (level : Nat) : Json → String
  | null => "null"
  | boolean true => "true"
  | boolean false => "false"
  | integer value => toString value
  | text value => quote value
  | list items => enclose level "[" "]" (renderItems (level + 1) items)
  | record fields => enclose level "\x7b" "\x7d" (renderFields (level + 1) fields)

/-- The items of a list at a level. -/
def renderItems (level : Nat) : List Json → List String
  | [] => []
  | item :: items => renderAt level item :: renderItems level items

/-- The fields of a record at a level. -/
def renderFields (level : Nat) : List (String × Json) → List String
  | [] => []
  | (key, value) :: fields =>
    (quote key ++ ": " ++ renderAt level value) :: renderFields level fields

end

/-- The text of a JSON value, without a final newline. -/
def render (value : Json) : String :=
  value.renderAt 0

end MonkeySyntax.Json
