import Wiring.Decimal
import Wiring.Scenario

/-!
# Commands and their reports

Running a scenario wires two workers up, sends messages before the wire-up is complete and counts
what arrives. Selecting shows how each resource scores as the auxiliary transport, and which one
is selected.
-/
namespace Wiring

inductive Command where
  | run (messages maxRounds : Nat)
  | select
  deriving DecidableEq, Repr, Inhabited

structure RunReport where
  rounds : Nat
  auxiliary : Option String
  sent : Nat
  delivered : Nat
  inOrder : Bool
  deriving DecidableEq, Repr

structure ScoredResource where
  resource : String
  score : Except String Float

structure SelectReport where
  candidates : List ScoredResource
  selected : Except String String

inductive Report where
  | run (report : RunReport)
  | select (report : SelectReport)

/-! ## Running -/

/-- The id of the data messages of a run. -/
def dataMessageId : UInt8 := 7

/-- A resource by its number and its name. -/
def describe (s : Network) (worker : WorkerId) (index : ResourceIndex) : String :=
  match (s.workers.get? worker).bind fun w => w.resources[index.toNat]? with
  | some r => index.text ++ " " ++ r.name.text
  | none => index.text

/-- The numbers received so far: payloads of four bytes, in order of delivery. -/
def received (s : Network) : List Nat :=
  s.trace.toList.filterMap fun
    | .recorded _ _ (.bytes payload) =>
      if payload.length = 4 then some (Bytes.ofLittleEndian payload) else none
    | _ => none

/-- What a run works with. -/
structure RunSetup where
  alpha : WorkerId
  beta : WorkerId
  endpoint : EndpointId
  messages : Nat

/-- Gives the endpoint and then the workers up, the receiver first. -/
def RunSetup.drop (r : RunSetup) : Activity Unit := do
  Activity.drop (.endpoint r.endpoint)
  Activity.drop (.worker r.beta)
  Activity.drop (.worker r.alpha)

/-- The endpoint that the receiver has to the sender, if there is one. -/
def RunSetup.back (r : RunSetup) : Activity (Option EndpointId) :=
  Activity.update fun s =>
    match s.workers.get? r.alpha with
    | some w => s.lookUp r.beta w.uuid
    | none => (s, none)

/-- Whether both endpoints are wired up and everything has arrived. -/
def RunSetup.isComplete (r : RunSetup) (back : Option EndpointId) (s : Network) : Bool :=
  let wired (id : EndpointId) := ((s.endpoints.get? id).map Network.isWiredUp).getD false
  wired r.endpoint && back.any wired && decide (r.messages ≤ (received s).length)

/-- Lets go of the endpoint of the receiver. -/
def dropBack : Option EndpointId → Activity Unit
  | some back => Activity.drop (.endpoint back)
  | none => return

/-- One round: both workers progress, then the stubs of both endpoints. -/
def RunSetup.round (r : RunSetup) (back : Option EndpointId) : Activity Unit := do
  let _ ← Activity.perform fun s => s.progressOf r.alpha
  let _ ← Activity.perform fun s => s.progressOf r.beta
  let _ ← Activity.perform fun s => s.progressEndpoint r.endpoint
  if let some back := back then
    let _ ← Activity.perform fun s => s.progressEndpoint back
  dropBack back

/-- Gives up, which drops everything. -/
def RunSetup.giveUp (r : RunSetup) (back : Option EndpointId) (done : Nat) :
    Activity (Except CommandError Nat) := do
  let delivered := (received (← get)).length
  dropBack back
  r.drop
  return .error (.incomplete done delivered r.messages)

/-- Goes round until the run is complete, for at most the given number of rounds, and answers with
their number. -/
def RunSetup.rounds (r : RunSetup) (done : Nat) :
    (left : Nat) → Activity (Except CommandError Nat)
  | 0 => do
    let back ← r.back
    if r.isComplete back (← get) then do
      dropBack back
      return .ok done
    else r.giveUp back done
  | left + 1 => do
    let back ← r.back
    if r.isComplete back (← get) then do
      dropBack back
      return .ok done
    else do
      r.round back
      rounds r (done + 1) left

/-- Sends the numbers below the count of messages, in order. -/
def RunSetup.sendAll (r : RunSetup) : List Nat → Activity (List HandleId)
  | [] => return []
  | n :: ns => do
    let handle ← Activity.perform fun s =>
      s.sendMessage r.endpoint dataMessageId (Bytes.littleEndian 4 n)
    return handle :: (← r.sendAll ns)

/-- The first send that failed. -/
def firstFailure (s : Network) (handles : List HandleId) : Option Refusal :=
  handles.findSome? fun h =>
    match s.status h with
    | some (.error why) => some why
    | _ => none

/-- Sends before the wire-up is complete and works until everything has arrived. -/
def RunSetup.deliver (r : RunSetup) (maxRounds : Nat) :
    Activity (Except CommandError RunReport) := do
  let s ← get
  let index ← Activity.perform fun s => (s, s.auxiliaryIndex (s.slot r.endpoint .messages))
  let auxiliary := index.map (describe s r.alpha)
  let handles ← r.sendAll (List.range r.messages)
  match ← r.rounds 0 maxRounds with
  | .error e => return .error e
  | .ok rounds =>
    match firstFailure (← get) handles with
    | some why => do
      r.drop
      return .error (.sendFailed why)
    | none => do
      let delivered := received (← get)
      Activity.perform fun s => s.close r.alpha
      Activity.perform fun s => s.close r.beta
      r.drop
      return .ok
        { rounds, auxiliary, sent := r.messages, delivered := delivered.length,
          inOrder := delivered == List.range r.messages }

/-- Wires two workers up. -/
def runScenario (sc : Scenario) (messages maxRounds : Nat) :
    Activity (Except CommandError RunReport) := do
  let fabric ← Activity.update Network.openFabric
  match ← sc.openWorker fabric "alpha" with
  | .error e => return .error e
  | .ok alpha =>
    match ← sc.openWorker fabric "beta" with
    | .error e => do
      Activity.drop (.worker alpha)
      return .error e
    | .ok beta =>
      modify fun s => s.setWorkerHandler beta dataMessageId (.record "beta" none false)
      let address := fun (s : Network) => ((s.workers.get? beta).map s.workerAddress).getD default
      match ← Activity.perform fun s => s.createEndpoint alpha (address s) with
      | .error e => do
        Activity.drop (.worker beta)
        Activity.drop (.worker alpha)
        return .error (.creatingEndpoint e)
      | .ok endpoint => RunSetup.deliver ⟨alpha, beta, endpoint, messages⟩ maxRounds

/-! ## Selecting -/

/-- How each resource of a worker scores by itself. -/
def scoredResources (s : Network) (w : Worker) : List ScoredResource :=
  w.resources.filterMap fun r =>
    (s.interfaces.get? r.interface).map fun i =>
      ⟨r.name.text, Scorer.auxiliary.score i.settings.attributes⟩

def selectScenario (sc : Scenario) : Activity (Except CommandError SelectReport) := do
  let fabric ← Activity.update Network.openFabric
  match ← sc.openWorker fabric "alpha" with
  | .error e => return .error e
  | .ok alpha =>
    match ← sc.openWorker fabric "beta" with
    | .error e => do
      Activity.drop (.worker alpha)
      return .error e
    | .ok beta =>
      let s ← get
      let candidates := ((s.workers.get? alpha).map (scoredResources s)).getD []
      let address := ((s.workers.get? beta).map s.workerAddress).getD default
      let selected : Except String String :=
        match s.selectFor alpha address.name address.entries .auxiliary with
        | .ok best => .ok (describe s alpha best.resource)
        | .error e => .error e.message
      Activity.perform fun s => s.close alpha
      Activity.perform fun s => s.close beta
      Activity.drop (.worker beta)
      Activity.drop (.worker alpha)
      return .ok ⟨candidates, selected⟩

/-- Executes a command on a scenario, in a network of its own. -/
def Command.execute (c : Command) (sc : Scenario) :
    Except Violation (Except CommandError Report) :=
  match c with
  | .run messages maxRounds =>
    ((runScenario sc messages maxRounds).run' {}).map fun r => r.map Report.run
  | .select => ((selectScenario sc).run' {}).map fun r => r.map Report.select

/-! ## Texts -/

/-- A text filled up with blanks to a number of characters. -/
def padded (width : Nat) (text : String) : String := text.pushn ' ' (width - text.length)

def RunReport.text (r : RunReport) : String :=
  "wired up in " ++ toString r.rounds ++ " rounds\n"
    ++ "auxiliary: " ++ r.auxiliary.getD "none" ++ "\n"
    ++ "delivered " ++ toString r.delivered ++ "/" ++ toString r.sent ++ " ("
    ++ (if r.inOrder then "in order" else "out of order") ++ ")\n"

def ScoredResource.text (c : ScoredResource) : String :=
  padded 24 c.resource ++ " "
    ++ (match c.score with
      | .ok score => Decimal.scientific 3 score
      | .error lacks => "no " ++ lacks)
    ++ "\n"

def SelectReport.text (r : SelectReport) : String :=
  String.join (r.candidates.map ScoredResource.text)
    ++ (match r.selected with
      | .ok selected => "selected " ++ selected ++ "\n"
      | .error reason => reason ++ "\n")

def Report.text : Report → String
  | .run r => r.text
  | .select r => r.text

def ScoredResource.toJson (c : ScoredResource) : Json.Value :=
  .object
    [ ("resource", .text c.resource),
      ("score", match c.score with | .ok score => .real score | .error _ => .null),
      ("lacks", match c.score with | .ok _ => .null | .error lacks => .text lacks) ]

def Report.toJson : Report → Json.Value
  | .run r =>
    .object
      [ ("command", .text "run"), ("rounds", .nat r.rounds),
        ("aux_resource", .ofOption .text r.auxiliary), ("sent", .nat r.sent),
        ("delivered", .nat r.delivered), ("in_order", .bool r.inOrder) ]
  | .select r =>
    .object
      [ ("command", .text "select"),
        ("candidates", .list (r.candidates.map ScoredResource.toJson)),
        ("selected", match r.selected with | .ok selected => .text selected | .error _ => .null),
        ("error", match r.selected with | .ok _ => .null | .error reason => .text reason) ]

end Wiring
