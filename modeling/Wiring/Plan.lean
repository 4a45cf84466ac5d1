import Wiring.Category

/-!
# Plans

A plan says which resource serves each category of an endpoint, and which categories are aliases
that share the endpoint of another. The categories that own an endpoint are the lanes of the plan.
An alias is followed one step only.
-/
namespace Wiring

/-- The number of a resource within its worker. -/
abbrev ResourceIndex := UInt8

/-- A resource is shown by its number. -/
def ResourceIndex.text (index : ResourceIndex) : String := "rsc[" ++ toString index.toNat ++ "]"

structure Plan where
  resources : PerCategory (Option ResourceIndex) := .const none
  aliases : PerCategory (Option Category) := .const none
  deriving DecidableEq, Repr, Inhabited

namespace Plan

/-- Serves a category with a resource of its own. -/
def withResource (p : Plan) (c : Category) (r : ResourceIndex) : Plan :=
  ⟨p.resources.set c (some r), p.aliases.set c none⟩

/-- Makes a category share the endpoint of another; a category is no alias of itself. -/
def withAlias (p : Plan) (c target : Category) : Plan :=
  if c = target then p else ⟨p.resources.set c none, p.aliases.set c (some target)⟩

/-- The resource that serves a category, its own or the one of the category it is an alias of. -/
def resource (p : Plan) (c : Category) : Option ResourceIndex :=
  match p.aliases.get c with
  | some target => p.resources.get target
  | none => p.resources.get c

def alias? (p : Plan) (c : Category) : Option Category := p.aliases.get c

/-- Whether a category owns an endpoint. -/
def isLane (p : Plan) (c : Category) : Bool :=
  (p.aliases.get c).isNone && (p.resources.get c).isSome

def lanes (p : Plan) : List Category := Category.all.filter p.isLane

/-- Whether a category uses the endpoint of a lane. -/
def shares (p : Plan) (lane c : Category) : Bool := c == lane || p.aliases.get c == some lane

/-- A lane with every category aliased to it. -/
def slotsOf (p : Plan) (lane : Category) : List Category := Category.all.filter (p.shares lane)

theorem mem_lanes {p : Plan} {c : Category} : c ∈ p.lanes ↔ p.isLane c = true := by
  simp [lanes, Category.mem_all]

theorem mem_slotsOf {p : Plan} {lane c : Category} :
    c ∈ p.slotsOf lane ↔ c = lane ∨ p.aliases.get c = some lane := by
  simp [slotsOf, shares, Category.mem_all]

theorem lane_mem_slotsOf (p : Plan) (lane : Category) : lane ∈ p.slotsOf lane :=
  mem_slotsOf.2 (.inl rfl)

theorem withAlias_self (p : Plan) (c : Category) : p.withAlias c c = p := by simp [withAlias]

end Plan

end Wiring
