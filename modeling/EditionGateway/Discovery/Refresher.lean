import EditionGateway.Linking.Error
import EditionGateway.Session.Registry

/-!
The loop that probes the backend again and again. A probe that fails leaves the last status in
place.
-/

namespace EditionGateway

inductive RefreshPhase
  | waiting
  | probing
  | stopped
deriving DecidableEq, Repr

/-- `due` is the time at which the next probe starts. -/
structure Refresher where
  interval : Duration
  due : Nat
  phase : RefreshPhase := .waiting
deriving Repr

namespace Refresher

/-- The first probe starts at once. -/
def start (interval : Duration) (now : Nat) : Refresher := { interval, due := now }

/-- A probe counts as late when it starts more than five milliseconds after it was due. -/
def slack : Duration := .ofMillis 5

/-- When the probe after one that starts now is due. A late probe delays all that follow. -/
def nextDue (r : Refresher) (now : Nat) : Nat :=
  (if now ≤ r.due + slack.nanos then r.due else now) + r.interval.nanos

/-- Goes on if there is anything to do: stops, or starts a probe. -/
def wake (r : Refresher) (now : Nat) (shuttingDown : Bool) : Option Refresher :=
  match r.phase with
  | .waiting =>
    if shuttingDown then some { r with phase := .stopped }
    else if r.due ≤ now then some { r with phase := .probing, due := r.nextDue now }
    else none
  | _ => none

/-- The probe has ended. -/
def finish (r : Refresher) : Refresher := { r with phase := .waiting }

end Refresher

/-- What a probe gave. -/
abbrev ProbeResult := Except BackendError BackendStatus

/-- Takes note of what a probe gave. -/
def Registry.noteProbe (r : Registry) : ProbeResult → Registry
  | .ok s => r.updateStatus s
  | .error _ => r

/-- The loop with probes whose results are known beforehand; each takes some time. Those that are
not known fail. `running` is the probe under way, with the time at which it ends. -/
structure RefreshLoop where
  refresher : Refresher
  probes : List (Duration × ProbeResult)
  registry : Registry := {}
  now : Nat := 0
  running : Option (Nat × ProbeResult) := none
  started : Nat := 0

namespace RefreshLoop

/-- One step, if there is anything to do. -/
def step (l : RefreshLoop) : Option RefreshLoop :=
  match l.running with
  | some (time, result) =>
    if time ≤ l.now then
      some { l with
        running := none
        registry := l.registry.noteProbe result
        refresher := l.refresher.finish }
    else none
  | none =>
    match l.refresher.wake l.now l.registry.shuttingDown with
    | none => none
    | some refresher =>
      if refresher.phase = .probing then
        let (delay, result) := l.probes.headD (⟨0⟩, .error (.unreachable "no more probes"))
        some { l with
          refresher
          probes := l.probes.tail
          running := some (l.now + delay.nanos, result)
          started := l.started + 1 }
      else some { l with refresher }

/-- Goes on, in at most `fuel` steps, until there is nothing to do. -/
def settle : Nat → RefreshLoop → RefreshLoop
  | 0, l => l
  | fuel + 1, l =>
    match l.step with
    | some l => settle fuel l
    | none => l

end RefreshLoop

end EditionGateway
