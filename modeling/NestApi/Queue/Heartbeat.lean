import NestApi.Common.Expiring
import NestApi.Common.IsoDates
import NestApi.Queue.Processor

/-!
# The queue heartbeat

A recurring job stamps a key in Redis, and the stamp tells whether anything consumes the queues.
Any number of workers beat, a write may land late or not at all, and the key may be deleted.
Times are milliseconds.
-/

namespace NestApi

def queueHeartbeatIntervalMilliseconds : ℕ := 5 * 60 * 1000

def queueHeartbeatKeyTtlSeconds : ℕ := 60 * 60

def queueHeartbeatStaleAfterMilliseconds : ℕ := queueHeartbeatIntervalMilliseconds * 3

/-- A run of the handler: when it began, and when it was to. -/
structure Beat where
  time : ℕ
  scheduledAt : Option String

/-- The clock, the key, the beats, the stamps that may still land, and the stamp that has landed
last, if the key was not deleted or overwritten since. -/
structure HeartbeatState where
  now : ℕ := 0
  key : ExpiringMap Unit String := fun _ => none
  beats : List Beat := []
  pending : List ℕ := []
  landed : Option ℕ := none

/-- `queueWorkerLivenessService.readHeartbeat`. -/
structure QueueWorkerHeartbeat where
  observedAt : Option ℕ
  isFresh : Bool
  staleAfterMilliseconds : ℕ
deriving DecidableEq

inductive HeartbeatAction
  | tick (milliseconds : ℕ)
  /-- A worker runs the handler. -/
  | beat (scheduledAt : Option String)
  /-- Redis carries out a write, at some time. -/
  | land (stamp : ℕ)
  | lose (stamp : ℕ)
  | evict
  /-- Something that is no time is written to the key. -/
  | tamper (value : String) (expiry : ℕ)

namespace HeartbeatState

variable (dates : IsoDates) (s : HeartbeatState)

/-- How late a beat is. -/
def lateness (scheduledAt : Option String) : Option ℤ :=
  ((scheduledAt.filter fun text => text ≠ "").bind dates.parse).map fun time : ℕ =>
    (s.now : ℤ) - time

/-- A beat that another one has superseded. -/
def isSuperseded (scheduledAt : Option String) : Bool :=
  (s.lateness dates scheduledAt).any fun milliseconds =>
    (queueHeartbeatIntervalMilliseconds : ℤ) < milliseconds

def superseded (milliseconds : ℤ) : Text :=
  text "superseded — scheduled " ++ integerToString milliseconds ++
    text "ms ago, longer than one heartbeat interval"

/-- `handle`, once its write was answered. -/
def outcome (scheduledAt : Option String) : JobOutcome :=
  match s.lateness dates scheduledAt with
  | some milliseconds =>
    if (queueHeartbeatIntervalMilliseconds : ℤ) < milliseconds then
      ⟨.skipped, some (superseded milliseconds)⟩
    else ⟨.completed, none⟩
  | none => ⟨.completed, none⟩

def readHeartbeat : QueueWorkerHeartbeat :=
  let rawHeartbeat := s.key.get? s.now ()
  let observedAt := (rawHeartbeat.filter fun text => text ≠ "").bind dates.parse
  { observedAt := observedAt
    isFresh := observedAt.any fun time : ℕ =>
      (s.now : ℤ) - time ≤ queueHeartbeatStaleAfterMilliseconds
    staleAfterMilliseconds := queueHeartbeatStaleAfterMilliseconds }

/-- What happens, when it can. -/
def exec (s : HeartbeatState) : HeartbeatAction → Option HeartbeatState
  | .tick milliseconds => some { s with now := s.now + milliseconds }
  | .beat scheduledAt =>
    if s.isSuperseded dates scheduledAt then some s
    else
      some { s with beats := ⟨s.now, scheduledAt⟩ :: s.beats, pending := s.now :: s.pending }
  | .land stamp =>
    if stamp ∈ s.pending then
      some { s with
        pending := s.pending.erase stamp
        key := s.key.set () (dates.toISOString stamp) (s.now + 1000 * queueHeartbeatKeyTtlSeconds)
        landed := some stamp }
    else none
  | .lose stamp =>
    if stamp ∈ s.pending then some { s with pending := s.pending.erase stamp } else none
  | .evict => some { s with key := s.key.evict (), landed := none }
  | .tamper value expiry =>
    if dates.parse value = none then
      some { s with key := s.key.set () value expiry, landed := none }
    else none

end HeartbeatState

end NestApi
