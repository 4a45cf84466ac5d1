/-!
# Categories of traffic

An endpoint sorts its traffic into three categories, each with a slot of its own. Active messages
come first: they also carry the control traffic of wire-up.
-/
namespace Wiring

inductive Category where
  | messages
  | memory
  | atomics
  deriving DecidableEq, Repr, Inhabited

namespace Category

/-- Every category, in the order of their slots. -/
def all : List Category := [.messages, .memory, .atomics]

def index : Category → Nat
  | .messages => 0
  | .memory => 1
  | .atomics => 2

def title : Category → String
  | .messages => "active messages"
  | .memory => "remote memory access"
  | .atomics => "atomic memory operations"

/-- The short name used in configuration texts. -/
def code : Category → String
  | .messages => "Am"
  | .memory => "Rma"
  | .atomics => "Amo"

def ofCode? (code : String) : Option Category := all.find? fun c => c.code == code

theorem mem_all (c : Category) : c ∈ all := by cases c <;> simp [all]

theorem ofCode?_code (c : Category) : ofCode? c.code = some c := by cases c <;> decide

end Category

/-- One value for each category. -/
structure PerCategory (α : Type) where
  messages : α
  memory : α
  atomics : α
  deriving DecidableEq, Repr, Inhabited

namespace PerCategory

variable {α β : Type}

/-- The same value everywhere. -/
def const (a : α) : PerCategory α := ⟨a, a, a⟩

def get (p : PerCategory α) : Category → α
  | .messages => p.messages
  | .memory => p.memory
  | .atomics => p.atomics

def set (p : PerCategory α) (c : Category) (a : α) : PerCategory α :=
  match c with
  | .messages => { p with messages := a }
  | .memory => { p with memory := a }
  | .atomics => { p with atomics := a }

/-- The values in the order of the categories. -/
def toList (p : PerCategory α) : List α := [p.messages, p.memory, p.atomics]

/-- The values computed from each category and its old value. -/
def mapWith (p : PerCategory α) (f : Category → α → β) : PerCategory β :=
  ⟨f .messages p.messages, f .memory p.memory, f .atomics p.atomics⟩

@[simp] theorem get_const (a : α) (c : Category) : (const a).get c = a := by cases c <;> rfl

@[simp] theorem get_set (p : PerCategory α) (c d : Category) (a : α) :
    (p.set c a).get d = if d = c then a else p.get d := by
  cases c <;> cases d <;> rfl

@[simp] theorem get_mapWith (p : PerCategory α) (f : Category → α → β) (c : Category) :
    (p.mapWith f).get c = f c (p.get c) := by cases c <;> rfl

theorem toList_eq_map (p : PerCategory α) : p.toList = Category.all.map p.get := rfl

end PerCategory

end Wiring
