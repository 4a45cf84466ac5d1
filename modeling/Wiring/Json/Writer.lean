import Wiring.Bytes
import Wiring.Decimal

/-!
# Writing JSON texts

A value is written compactly, or over several lines with two blanks for each level. Fields keep
their order; a number that is not finite is written as `null`.
-/
namespace Wiring.Json

inductive Value where
  | null
  | bool (b : Bool)
  | nat (n : Nat)
  | real (f : Float)
  | text (s : String)
  | list (items : List Value)
  | object (fields : List (String × Value))

/-- What stands for a character inside quotes. -/
def escape (c : Char) : List Char :=
  if c = '"' then ['\\', '"']
  else if c = '\\' then ['\\', '\\']
  else if c = '\x08' then ['\\', 'b']
  else if c = '\x0c' then ['\\', 'f']
  else if c = '\n' then ['\\', 'n']
  else if c = '\r' then ['\\', 'r']
  else if c = '\t' then ['\\', 't']
  else if c.toNat < 0x20 then
    ['\\', 'u', '0', '0', Bytes.hexDigit (c.toNat / 16), Bytes.hexDigit (c.toNat % 16)]
  else [c]

/-- A text in quotes. -/
def quote (s : String) : String := String.ofList ('"' :: s.toList.flatMap escape ++ ['"'])

/-- How the parts of a list or object are set apart. -/
structure Layout where
  /-- What stands before each part and before the closing bracket, by level. -/
  lineStart : Nat → String
  afterColon : String

def compactLayout : Layout := ⟨fun _ => "", ""⟩

def prettyLayout : Layout := ⟨fun level => "\n" ++ "".pushn ' ' (2 * level), " "⟩

def enclose (layout : Layout) (level : Nat) (opening closing : String) (parts : List String) :
    String :=
  if parts.isEmpty then opening ++ closing
  else opening ++ ",".intercalate (parts.map (layout.lineStart (level + 1) ++ ·))
    ++ layout.lineStart level ++ closing

mutual

def Value.render (layout : Layout) (level : Nat) : Value → String
  | .null => "null"
  | .bool b => if b then "true" else "false"
  | .nat n => toString n
  | .real f => (Decimal.shortest? f).getD "null"
  | .text s => quote s
  | .list items => enclose layout level "[" "]" (renderItems layout (level + 1) items)
  | .object fields =>
    enclose layout level "\x7b" "\x7d" (renderFields layout (level + 1) fields)

def renderItems (layout : Layout) (level : Nat) : List Value → List String
  | [] => []
  | v :: vs => v.render layout level :: renderItems layout level vs

def renderFields (layout : Layout) (level : Nat) : List (String × Value) → List String
  | [] => []
  | (key, v) :: fields =>
    (quote key ++ ":" ++ layout.afterColon ++ v.render layout level)
      :: renderFields layout level fields

end

def Value.compact (v : Value) : String := v.render compactLayout 0

def Value.pretty (v : Value) : String := v.render prettyLayout 0

/-- The value, or `null` if there is none. -/
def Value.ofOption {α : Type} (f : α → Value) : Option α → Value
  | none => .null
  | some a => f a

end Wiring.Json
