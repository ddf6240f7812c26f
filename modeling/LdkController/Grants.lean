import LdkController.Access
import Mathlib.Data.Finset.Dedup

/-!
# Grants

`src/lib.rs`: the process-wide state of the controller and the branch of both
grant loops that takes a kind-30078 event. An event is recorded as applied
before its content is parsed.
-/

namespace LdkController

structure AppliedGrantEvent where
  createdAt : Nat
  eventId : String
deriving DecidableEq, Repr

structure Controller extends Stores where
  owners : List String
  relayPubkey : Option String
  appliedGrantEvents : Table String AppliedGrantEvent
  subscriptions : Table String (Finset String)

def Controller.init (relayPubkey : Option String) : Controller := ⟨.empty, [], relayPubkey, ∅, ∅⟩

def setOwners (c : Controller) (owners : List String) : Controller := { c with owners := owners }

def parseGrantTarget (relayPubkey : Option String) (event : Event) : Option String :=
  match event.tags.findSome? fun parts => if parts[0]? = some "d" then parts[1]? else none with
  | none => none
  | some dTag =>
    -- `splitn(2, ':')`: the part before the first colon, and the rest if there is a colon
    let parts := dTag.toList.span (· != ':')
    if relayPubkey.any (· != String.ofList parts.1) then none
    else
      match parts.2 with
      | [] => none
      | _ :: userPubkey => if userPubkey.isEmpty then none else some (String.ofList userPubkey)

def shouldApplyGrantEvent (map : Table String AppliedGrantEvent) (targetPubkey : String) (event : Event) :
    Table String AppliedGrantEvent × Bool :=
  let new : AppliedGrantEvent := ⟨event.createdAt, event.id⟩
  match map.lookup targetPubkey with
  | none => (map.insert targetPubkey new, true)
  | some existing =>
    if existing.createdAt < event.createdAt ∨
        (event.createdAt = existing.createdAt ∧ existing.eventId < event.id) then
      (map.insert targetPubkey new, true)
    else (map, false)

/-- The grant branch of a loop; `now` is the time that installing a profile reads. -/
def handleGrantEvent (decode : String → Option UsageProfile) (c : Controller) (now : Nat) (event : Event) :
    Controller :=
  match parseGrantTarget c.relayPubkey event with
  | none => c
  | some targetPubkey =>
    match shouldApplyGrantEvent c.appliedGrantEvents targetPubkey event with
    | (applied, false) => { c with appliedGrantEvents := applied }
    | (applied, true) =>
      match decode event.content with
      -- the event stays recorded although it installs nothing
      | none => { c with appliedGrantEvents := applied }
      | some profile =>
        { c with
          appliedGrantEvents := applied
          toStores := c.toStores.upsertUsageProfileAndResetStates targetPubkey profile now }

example : parseGrantTarget (some "node") ⟨"owner", 1, "0a", [["p", "node"], ["d", "node:alice:x"]], ""⟩ =
    some "alice:x" := by decide

example : parseGrantTarget (some "node") ⟨"owner", 1, "0a", [["d", "other:alice"]], ""⟩ = none := by decide

end LdkController
