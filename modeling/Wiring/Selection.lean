import Wiring.Address
import Wiring.Failure
import Wiring.Plan
import Wiring.Settings.Basic

/-!
# Selection of a transport

A candidate is a pair of a local resource and an entry of the peer's address that it can reach. A
scorer gives each candidate a score or says what it lacks. The candidate with the highest score
wins if that score is positive, and of equal scores the first one does; if there is no winner, the
reasons are listed in the order of the candidates.
-/
namespace Wiring

/-- The transport and the device that a resource stands for. -/
structure ResourceName where
  transport : String
  device : String
  deriving DecidableEq, Repr, Inhabited

def ResourceName.text (n : ResourceName) : String := n.transport ++ "/" ++ n.device

/-- Ranks interfaces for one purpose: a score, or what the interface lacks. -/
structure Scorer where
  purpose : String
  score : Attributes → Except String Float

/-- A count as the nearest double. -/
def countAsFloat (n : Nat) : Float := (UInt64.ofNat n).toFloat

/-- What an interface must be able to do to carry signals, and what it lacks without it. -/
def auxiliaryNeeds : List (Capabilities × String) :=
  [ (.bulkMessages, "am_bcopy for wireup"), (.connectToInterface, "connecting to iface"),
    (.synchronousHandlers, "sync am callback"), (.pending, "pending") ]

/-- Low latency is worth most, then large messages. -/
def auxiliaryScore (a : Attributes) : Float :=
  1e-3 / a.latency + 1e3 * countAsFloat (max a.messages.bulk a.messages.short)

/-- Scores interfaces for carrying signals. -/
def Scorer.auxiliary : Scorer where
  purpose := "auxiliary"
  score a :=
    match auxiliaryNeeds.find? fun need => !a.capabilities.contains need.1 with
    | some need => .error need.2
    | none => .ok (auxiliaryScore a)

structure Candidate where
  resource : ResourceIndex
  entry : Nat
  name : ResourceName
  attributes : Attributes

structure Selection where
  resource : ResourceIndex
  entry : Nat
  score : Float
  deriving Repr, Inhabited

namespace Scorer

/-- The positive score of a candidate, or the reason against it. -/
def judge (scorer : Scorer) (c : Candidate) : Except String Float :=
  match scorer.score c.attributes with
  | .error lacks => .error (c.name.text ++ " - no " ++ lacks)
  | .ok score => if score > 0 then .ok score else .error (c.name.text ++ " - zero score")

/-- Keeps the better of the best selection so far and the next candidate. -/
def improve (scorer : Scorer) (best : Option Selection) (c : Candidate) : Option Selection :=
  match scorer.judge c, best with
  | .error _, _ => best
  | .ok score, none => some ⟨c.resource, c.entry, score⟩
  | .ok score, some b => if score > b.score then some ⟨c.resource, c.entry, score⟩ else some b

def reason? (scorer : Scorer) (c : Candidate) : Option String :=
  match scorer.judge c with
  | .error reason => some reason
  | .ok _ => none

/-- The best candidate, or every reason against the candidates. -/
def select (scorer : Scorer) (peer : String) (cs : List Candidate) :
    Except WireupError Selection :=
  match cs.foldl scorer.improve none with
  | some best => .ok best
  | none =>
    let reasons := cs.filterMap scorer.reason?
    .error (.noSuitableResource scorer.purpose peer
      (if reasons.isEmpty then "no reachable resources" else ", ".intercalate reasons))

end Scorer

end Wiring
