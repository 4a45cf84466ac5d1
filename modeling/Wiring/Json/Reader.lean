import Wiring.Bytes

/-!
# Reading JSON texts

A reader takes a value of a known type from the front of a text. Reading goes from left to right
and the first fault decides, so a text with several faults has the kind of the first: it ends too
early, it is no JSON, or its JSON does not fit the type.
-/
namespace Wiring.Json

inductive Fault where
  | truncated
  | malformed
  | mismatched
  deriving DecidableEq, Repr

abbrev Reader (α : Type) := StateT (List Char) (Except Fault) α

/-- The four blank characters of JSON. -/
def isBlank (c : Char) : Bool := c == ' ' || c == '\n' || c == '\t' || c == '\r'

/-- The next character that is not blank; it stays in the text. -/
def peek? : Reader (Option Char) := fun cs =>
  let rest := cs.dropWhile isBlank
  .ok (rest.head?, rest)

/-- As `peek?`, where the text must go on. -/
def peek : Reader Char := do
  match ← peek? with
  | some c => return c
  | none => throw .truncated

/-- Drops one character. -/
def eat : Reader Unit := modify List.tail

/-- The next character itself, blank or not, which is taken. -/
def next : Reader Char := do
  match ← get with
  | c :: rest => do set rest; return c
  | [] => throw .truncated

/-- Takes the characters of a word. -/
def word : List Char → Reader Unit
  | [] => return
  | c :: cs => do if (← next) = c then word cs else throw .malformed

/-! ## Strings -/

/-- Four hexadecimal digits. They are missing when fewer than four bytes are left. -/
def hexQuad : Reader Nat := do
  let cs ← get
  if (cs.take 4).foldl (fun n c => n + c.utf8Size) 0 < 4 then throw .truncated
  match hexNat? (cs.take 4) with
  | some n => do set (cs.drop 4); return n
  | none => throw .malformed

def isHigh (n : Nat) : Bool := 0xD800 ≤ n && n ≤ 0xDBFF

def isLow (n : Nat) : Bool := 0xDC00 ≤ n && n ≤ 0xDFFF

/-- The character written by a code unit, or by a high one with the low one that must follow. -/
def codePoint : Reader Char := do
  let n ← hexQuad
  if isLow n then throw .malformed
  else if isHigh n then do
    word ['\\', 'u']
    let low ← hexQuad
    if isLow low then return Char.ofNat (0x10000 + (n - 0xD800) * 0x400 + (low - 0xDC00))
    else throw .malformed
  else return Char.ofNat n

/-- The characters that may follow a backslash, with what they stand for. -/
def escapes : List (Char × Char) :=
  [('"', '"'), ('\\', '\\'), ('/', '/'), ('b', '\x08'), ('f', '\x0c'), ('n', '\n'), ('r', '\r'),
    ('t', '\t')]

/-- The character written after a backslash. -/
def escaped : Reader Char := do
  let c ← next
  if c = 'u' then codePoint
  else match escapes.lookup c with
    | some meant => return meant
    | none => throw .malformed

/-- As `escaped`, without a look at what a code unit means. -/
def skipEscaped : Reader Unit := do
  let c ← next
  if c = 'u' then discard hexQuad
  else if (escapes.lookup c).isSome then return
  else throw .malformed

/-- The rest of a string after its opening quote. -/
def stringRest : (fuel : Nat) → Reader (List Char)
  | 0 => throw .truncated
  | fuel + 1 => do
    let c ← next
    if c = '"' then return []
    else if c = '\\' then do
      let meant ← escaped
      return meant :: (← stringRest fuel)
    else if c.toNat < 0x20 then throw .malformed
    else return c :: (← stringRest fuel)

def skipStringRest : (fuel : Nat) → Reader Unit
  | 0 => throw .truncated
  | fuel + 1 => do
    let c ← next
    if c = '"' then return
    else if c = '\\' then do skipEscaped; skipStringRest fuel
    else if c.toNat < 0x20 then throw .malformed
    else skipStringRest fuel

/-- The characters up to the quote that ends a string, or all when none does. -/
def extent : List Char → Nat
  | [] => 0
  | '"' :: _ => 0
  | '\\' :: _ :: rest => extent rest + 2
  | _ :: rest => extent rest + 1

/-- Every character before the closing quote is passed once and the quote itself in one more step,
which bounds the reading of the rest of a string. -/
def stringFuel : Reader Nat := do return extent (← get) + 1

def string : Reader String := do return String.ofList (← stringRest (← stringFuel))

/-- Takes the rest of a string without keeping it. -/
def skipString : Reader Unit := do skipStringRest (← stringFuel)

/-- Every step of a reader takes a character, so its length bounds the reading of a text. -/
def length : Reader Nat := do return (← get).length + 1

/-! ## Numbers -/

inductive Number where
  | natural (n : Nat)
  | negative (n : Nat)
  | real (f : Float)

/-- Takes the digits at the front. -/
def digits : Reader (List Char) := do
  let cs ← get
  set (cs.dropWhile Char.isDigit)
  return cs.takeWhile Char.isDigit

def digitValue (c : Char) : Nat := c.toNat - 48

/-- Takes digits into a significand as long as it stays below `2 ^ 64`. The result is the
significand, how many digits went into it and how many were left out. -/
def significand (start : Nat) (ds : List Char) : Nat × Nat × Nat :=
  ds.foldl (fun (n, used, left) d =>
    if left = 0 ∧ n * 10 + digitValue d < UInt64.size then (n * 10 + digitValue d, used + 1, 0)
    else (n, used, left + 1)) (start, 0, 0)

/-- The largest power of ten that is a double. -/
def topPower : Nat := 308

def tenTo (n : Nat) : Float := Float.ofScientific 1 false n

/-- Divides by a power of ten, in steps of the largest one. -/
def lower (f : Float) (power : Nat) : Float :=
  if f == 0 then f
  else if power ≤ topPower then f / tenTo power
  else lower (f / tenTo topPower) (power - topPower)
termination_by power
decreasing_by simp only [topPower] at *; omega

/-- `n * 10 ^ power` as a double: one multiplication or division, each rounded. A value that is
too large is malformed. -/
def double (n : Nat) (power : Int) : Reader Float := do
  let f := (UInt64.ofNat n).toFloat
  if power < 0 then return lower f power.natAbs
  else if power.toNat ≤ topPower then do
    let product := f * tenTo power.toNat
    if product.isInf then throw .malformed else return product
  else if f == 0 then return f
  else throw .malformed

/-- The exponent after its mark, which is still in the text. -/
def exponent : Reader Int := do
  eat
  let sign := (← get).head?
  if sign = some '+' ∨ sign = some '-' then eat
  let first ← next
  if ¬ first.isDigit then throw .malformed
  let n := (first :: (← digits)).foldl (fun n d => n * 10 + digitValue d) 0
  return if sign = some '-' then -(n : Int) else n

def isExponentMark (c : Option Char) : Bool := c == some 'e' || c == some 'E'

/-- The number `n * 10 ^ power` with the exponent that may follow. -/
def real (n : Nat) (power : Int) : Reader Float := do
  if isExponentMark (← get).head? then double n (power + (← exponent)) else double n power

/-- The digits after the point, which is still in the text. -/
def fraction (n : Nat) (power : Int) : Reader Float := do
  eat
  let ds ← digits
  if ds.isEmpty then
    if (← get).isEmpty then throw .truncated else throw .malformed
  let (n, used, _) := significand n ds
  real n (power - used)

/-- A number without its sign. A whole number that is negative or a word stays exact; zero with a
minus sign is a double. -/
def magnitude (negative : Bool) : Reader Number := do
  let first ← next
  if ¬ first.isDigit then throw .malformed
  let more ← digits
  if first = '0' ∧ ¬ more.isEmpty then throw .malformed
  let (n, _, left) := significand 0 (first :: more)
  let signed (f : Float) : Number := .real (if negative then -f else f)
  let mark := (← get).head?
  if mark = some '.' then return signed (← fraction n left)
  else if isExponentMark mark ∨ left ≠ 0 then return signed (← real n left)
  else if ¬ negative then return .natural n
  else if n = 0 ∨ UInt64.size / 2 < n then return signed (UInt64.ofNat n).toFloat
  else return .negative n

/-- Skips a number without a look at its size. -/
def skipNumber : Reader Unit := do
  let cs ← get
  let first := cs.head?
  eat
  if ¬ (first.any Char.isDigit) then throw .malformed
  let more ← digits
  if first = some '0' ∧ ¬ more.isEmpty then throw .malformed
  if (← get).head? = some '.' then
    eat
    if (← digits).isEmpty then throw .malformed
  if isExponentMark (← get).head? then
    eat
    let sign := (← get).head?
    if sign = some '+' ∨ sign = some '-' then eat
    if (← digits).isEmpty then throw .malformed

/-! ## Values of any kind -/

/-- Refuses a value of another type than the wanted one. A broken value is malformed or truncated
before it is of the wrong type; of lists and objects only the bracket is looked at. -/
def mismatch {α : Type} : Reader α := do
  let c ← peek
  if c = 'n' then word "null".toList
  else if c = 't' then word "true".toList
  else if c = 'f' then word "false".toList
  else if c = '-' then do eat; discard (magnitude true)
  else if c.isDigit then discard (magnitude false)
  else if c = '"' then do eat; discard string
  else if c ≠ '[' ∧ c ≠ '{' then throw .malformed
  throw .mismatched

/-- Where the skipping of a value stands: before a value, before an element or key, after an
opening bracket, or after a value. -/
inductive Skip where
  | value
  | item
  | opened
  | after

/-- Whether `c` closes the bracket `b`. -/
def closes (b c : Char) : Bool := (b == '[' && c == ']') || (b == '{' && c == '}')

/-- Skips a value inside the given open brackets, the innermost first. -/
def skipWithin : (fuel : Nat) → List Char → Skip → Reader Unit
  | 0, _, _ => throw .truncated
  | fuel + 1, brackets, .value => do
    let c ← peek
    if c = '[' ∨ c = '{' then do eat; skipWithin fuel (c :: brackets) .opened
    else do
      if c = 'n' then word "null".toList
      else if c = 't' then word "true".toList
      else if c = 'f' then word "false".toList
      else if c = '-' then do eat; skipNumber
      else if c.isDigit then skipNumber
      else if c = '"' then do eat; skipString
      else throw .malformed
      skipWithin fuel brackets .after
  | fuel + 1, brackets, .item => do
    if brackets.head? = some '{' then
      if (← peek) ≠ '"' then throw .malformed
      eat
      skipString
      if (← peek) ≠ ':' then throw .malformed
      eat
    skipWithin fuel brackets .value
  | fuel + 1, brackets, .opened => do
    let c ← peek
    if closes (brackets.headD ' ') c then do eat; skipWithin fuel brackets.tail .after
    else skipWithin fuel brackets .item
  | _ + 1, [], .after => return
  | fuel + 1, b :: brackets, .after => do
    let c ← peek
    if c = ',' then do eat; skipWithin fuel (b :: brackets) .item
    else if closes b c then do eat; skipWithin fuel brackets .after
    else throw .malformed

/-- Skips a value of any type. Each character is passed in at most two steps. -/
def skip : Reader Unit := do skipWithin (3 * (← length)) [] .value

/-! ## Typed values -/

def text : Reader String := do
  if (← peek) = '"' then do eat; string else mismatch

def number : Reader Number := do
  let c ← peek
  if c = '-' then do eat; magnitude true
  else if c.isDigit then magnitude false
  else mismatch

/-- A whole number below the limit. -/
def natBelow (limit : Nat) : Reader Nat := do
  match ← number with
  | .natural n => if n < limit then return n else throw .mismatched
  | _ => throw .mismatched

/-- Any number. -/
def float : Reader Float := do
  match ← number with
  | .natural n => return (UInt64.ofNat n).toFloat
  | .negative n => return -(UInt64.ofNat n).toFloat
  | .real f => return f

/-- A value or `null`. -/
def nullable {α : Type} (reader : Reader α) : Reader (Option α) := do
  if (← peek?) = some 'n' then do word "null".toList; return none
  else return some (← reader)

/-- Whether a list goes on; the comma between two elements is taken. -/
def moreItems (first : Bool) : Reader Bool := do
  let c ← peek
  if c = ']' then return false
  else if first then return true
  else if c = ',' then do
    eat
    if (← peek) = ']' then throw .malformed else return true
  else throw .malformed

/-- The bracket at the end of a list. -/
def closeList : Reader Unit := do
  if (← peek) = ']' then eat else throw .malformed

def listRest {α : Type} (reader : Reader α) : (fuel : Nat) → (first : Bool) → Reader (List α)
  | 0, _ => throw .truncated
  | fuel + 1, first => do
    if ← moreItems first then
      let a ← reader
      return a :: (← listRest reader fuel false)
    else return []

def list {α : Type} (reader : Reader α) : Reader (List α) := do
  if (← peek) = '[' then
    eat
    let items ← listRest reader (← length) true
    closeList
    return items
  else mismatch

/-- Exactly the given number of elements. -/
def itemsRest {α : Type} (reader : Reader α) : (count : Nat) → (first : Bool) → Reader (List α)
  | 0, _ => return []
  | count + 1, first => do
    if ← moreItems first then
      let a ← reader
      return a :: (← itemsRest reader count false)
    else throw .mismatched

def items {α : Type} (reader : Reader α) (count : Nat) : Reader (List α) := do
  if (← peek) = '[' then
    eat
    let found ← itemsRest reader count true
    closeList
    return found
  else mismatch

/-- A member of a record: reading it gives the change it makes to the record. -/
structure Member (σ : Type) where
  name : String
  required : Bool
  change : Reader (σ → σ)

/-- A member that sets what a reader reads. -/
def Member.of {σ α : Type} (name : String) (required : Bool) (reader : Reader α)
    (put : σ → α → σ) : Member σ :=
  ⟨name, required, do
    let a ← reader
    return fun s => put s a⟩

/-- The fields of a record written as a list, in their order. -/
def positional {σ : Type} : List (Member σ) → (first : Bool) → σ → Reader σ
  | [], _, s => return s
  | field :: fields, first, s => do
    if ← moreItems first then
      let change ← field.change
      positional fields false (change s)
    else if field.required then throw .mismatched
    else positional fields first s

/-- Whether an object goes on; the comma between two entries is taken. -/
def moreEntries (first : Bool) : Reader Bool := do
  let c ← peek
  if c = '}' then return false
  else if first then if c = '"' then return true else throw .malformed
  else if c = ',' then do
    eat
    if (← peek) = '"' then return true else throw .malformed
  else throw .malformed

def colon : Reader Unit := do
  if (← peek) = ':' then eat else throw .malformed

/-- The entries of a record written as an object. An unknown key is skipped with its value; a
known one may come once. -/
def entriesRest {σ : Type} (fields : List (Member σ)) :
    (fuel : Nat) → (first : Bool) → (seen : List String) → σ → Reader σ
  | 0, _, _, _ => throw .truncated
  | fuel + 1, first, seen, s => do
    if ← moreEntries first then
      eat
      let key ← string
      match fields.find? fun field => field.name == key with
      | none => do
        colon
        skip
        entriesRest fields fuel false seen s
      | some field => do
        if seen.contains key then throw .mismatched
        colon
        let change ← field.change
        entriesRest fields fuel false (key :: seen) (change s)
    else if fields.any fun field => field.required && !seen.contains field.name then
      throw .mismatched
    else return s

/-- A record written as an object or as a list of its fields; what is missing and not required
stays as it is in `blank`. -/
def record {σ : Type} (fields : List (Member σ)) (blank : σ) : Reader σ := do
  let c ← peek
  if c = '[' then
    eat
    let s ← positional fields true blank
    closeList
    return s
  else if c = '{' then
    eat
    let s ← entriesRest fields (← length) true [] blank
    if (← peek) = '}' then eat else throw .malformed
    return s
  else mismatch

/-- One of several named choices, written as its name or as an object with that one key and the
value `null`. -/
def choice {α : Type} (named? : String → Option α) : Reader α := do
  let pick (name : String) : Reader α :=
    match named? name with
    | some a => return a
    | none => throw .mismatched
  let c ← peek
  if c = '"' then do eat; pick (← string)
  else if c = '{' then
    eat
    if (← peek) = '"' then eat else throw .malformed
    let a ← pick (← string)
    colon
    if (← peek) = 'n' then word "null".toList else mismatch
    if (← peek) = '}' then eat else throw .malformed
    return a
  else throw .malformed

/-- Reads a whole text, after which only blanks may follow. -/
def parse {α : Type} (reader : Reader α) (source : String) : Except Fault α := do
  let (a, rest) ← reader source.toList
  if (rest.dropWhile isBlank).isEmpty then return a else throw .malformed

end Wiring.Json
