import Wiring.Settings.Text
import Wiring.Network.Operations

/-!
# Scenarios

A scenario lists the resources that every worker opens and says which of them serve messages and
memory access.
-/
namespace Wiring

structure ResourceSpec where
  name : ResourceName
  settings : InterfaceSettings := {}
  deriving Inhabited

structure Scenario where
  resources : List ResourceSpec
  messages : ResourceIndex
  memory : Option ResourceIndex := none
  deriving Inhabited

/-- Why a command fails. -/
inductive CommandError where
  | noSuchResource (category : Category) (index : ResourceIndex) (count : Nat)
  | creatingEndpoint (why : WireupError)
  | incomplete (rounds delivered messages : Nat)
  | sendFailed (why : Refusal)
  deriving DecidableEq, Repr

/-- The messages of an error from the outermost to its root. -/
def CommandError.chain : CommandError → List String
  | .noSuchResource category index count =>
    [category.title ++ " configured on resource " ++ toString index.toNat ++ " of "
      ++ toString count]
  | .creatingEndpoint why => ["creating endpoint", why.message]
  | .incomplete rounds delivered messages =>
    ["wire-up incomplete after " ++ toString rounds ++ " rounds: " ++ toString delivered ++ " of "
      ++ toString messages ++ " delivered"]
  | .sendFailed why => ["send failed: " ++ why.message]

/-- The outermost message of an error. -/
def CommandError.message (e : CommandError) : String := e.chain.headD ""

namespace ResourceSpec

def fields : List (Json.Member ResourceSpec) :=
  [ .of "tl_name" true Json.text fun s v => { s with name := { s.name with transport := v } },
    .of "dev_name" true Json.text fun s v => { s with name := { s.name with device := v } },
    .of "loopback" false InterfaceSettings.reader fun s v => { s with settings := v } ]

def reader : Json.Reader ResourceSpec := Json.record fields ⟨⟨"", ""⟩, {}⟩

end ResourceSpec

namespace Scenario

/-- A resource that can only pair links serves messages; a full one is left to carry wire-up. -/
def default : Scenario where
  resources :=
    [ ⟨⟨"shm", "mem0"⟩,
        { capabilities := Capabilities.loopback.difference .connectToInterface }⟩,
      ⟨⟨"loopback", "lo0"⟩, {}⟩ ]
  messages := 0

def fields : List (Json.Member Scenario) :=
  [ .of "resources" true (Json.list ResourceSpec.reader) fun s v => { s with resources := v },
    .of "am" true ResourceIndex.reader fun s v => { s with messages := v },
    .of "rma" false (Json.nullable ResourceIndex.reader) fun s v => { s with memory := v } ]

def reader : Json.Reader Scenario := Json.record fields ⟨[], 0, none⟩

/-- The scenario that a JSON text describes. -/
def parse (text : String) : Except Json.Fault Scenario := Json.parse reader text

/-- Adds a resource for a category to a plan, if there is one and it exists. -/
def serve (sc : Scenario) (p : Plan) (c : Category) (index : Option ResourceIndex) :
    Except CommandError Plan :=
  match index with
  | none => .ok p
  | some index =>
    if sc.resources.length ≤ index.toNat then
      .error (.noSuchResource c index sc.resources.length)
    else .ok (p.withResource c index)

/-- Which resource serves which category. -/
def plan (sc : Scenario) : Except CommandError Plan := do
  sc.serve (← sc.serve {} .messages (some sc.messages)) .memory sc.memory

end Scenario

/-- Activities of an application that a violation ends. -/
abbrev Activity (α : Type) := StateT Network (Except Violation) α

namespace Activity

/-- Performs an operation of the network. -/
def perform {α : Type} (op : Network → Network × Except Violation α) : Activity α := fun s =>
  match op s with
  | (s, .ok a) => .ok (a, s)
  | (_, .error v) => .error v

/-- Performs an operation that meets no violation. -/
def update {α : Type} (op : Network → Network × α) : Activity α := fun s =>
  let (s, a) := op s
  .ok (a, s)

def drop (ref : Ref) : Activity Unit := perform fun s => s.drop ref

end Activity

open Activity

/-- Opens the resources of a scenario on a fabric. The worker to come takes the holds on them. -/
def Scenario.openResources (fabric : FabricId) : List ResourceSpec → Activity (List Resource)
  | [] => return []
  | spec :: specs => do
    let interface ← update fun s => s.openInterface fabric spec.settings
    return ⟨spec.name, interface⟩ :: (← openResources fabric specs)

/-- Opens the resources of a scenario and a worker on them. -/
def Scenario.openWorker (sc : Scenario) (fabric : FabricId) (name : String) :
    Activity (Except CommandError WorkerId) := do
  let resources ← openResources fabric sc.resources
  let opened ← match sc.plan with
    | .ok plan => do
      let worker ← update fun s => s.openWorker { name } plan resources
      pure (Except.ok worker)
    | .error e => pure (Except.error e)
  for r in resources do
    drop (.interface r.interface)
  return opened

end Wiring
