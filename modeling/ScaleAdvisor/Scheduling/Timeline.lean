import ScaleAdvisor.Scheduling.Launcher

/-!
A clock that stands still while anything is left to do and then jumps to the next moment at which
something is due: a cycle, the end of a token, or something done from outside.
-/

namespace ScaleAdvisor

/-- Something done from outside at a set time. -/
inductive Intervention where
  | cancel (token : TokenId) (cause : String)
  | close (view : ViewId)

/-- The time, and what goes by it. -/
structure Timeline where
  now : Nat := 0
  tokens : TokenForest := {}
  launcher : Launcher
  /-- What is still to be done from outside, and when. -/
  agenda : List (Nat × Intervention) := []

/-- The first of some moments that is later than another. -/
def Moment.firstAfter (now : Nat) (moments : List Nat) : Option Nat :=
  (moments.filter (now < ·)).min?

namespace Timeline

def perform (f : Forest) (t : Timeline) : Intervention → Forest × Timeline
  | .cancel token cause => (f, { t with tokens := t.tokens.cancel token cause })
  | .close view => (f.close view, t)

/-- Do from outside what is due. -/
def intervene (f : Forest) (t : Timeline) : Forest × Timeline :=
  let (due, later) := t.agenda.partition (·.1 ≤ t.now)
  due.foldl (fun (f, t) e => perform f t e.2) (f, { t with agenda := later })

/-- Let the loops do all they want to do now. -/
def turn (f : Forest) (t : Timeline) : Forest × Timeline :=
  let (f', launcher) := t.launcher.turn t.tokens t.now f
  (f', { t with launcher })

/-- Everything that is due now. -/
def settle (f : Forest) (t : Timeline) : Forest × Timeline :=
  let (f', t') := t.intervene f
  t'.turn f'

/-- The moments at which a loop or an intervention is due. -/
def moments (t : Timeline) : List Nat := (t.launcher.wakes t.tokens).toList ++ t.agenda.map (·.1)

/-- Let time pass from `now` up to `limit`. What is due at the limit itself comes later. -/
def passTo (limit now : Nat) (f : Forest) (t : Timeline) : Forest × Timeline :=
  let (f', t') := { t with now }.settle f
  match Moment.firstAfter now t'.moments with
  | some next =>
    if _h : now < next ∧ next < limit then passTo limit next f' t'
    else (f', { t' with now := limit })
  | none => (f', { t' with now := limit })
termination_by limit - now
decreasing_by omega

/-- Let some milliseconds pass. -/
def sleep (ms : Nat) (f : Forest) (t : Timeline) : Forest × Timeline :=
  if ms = 0 then (f, t) else passTo (t.now + ms) t.now f t

/-- Start a loop once a slot is free, and let it and the others do what they want to. When no slot
is free, only the end of the token ends the wait; nothing if the token has no end. -/
def launch (name : String) (view : ViewId) (token : TokenId) (resync : Nat) (f : Forest)
    (t : Timeline) : Option (Forest × Timeline × Except SchedulerError LoopId) :=
  match t.tokens.cause t.now token with
  | some cause => some (f, t, .error (.cancelled cause))
  | none =>
    if t.launcher.freeSlots = 0 then
      (t.tokens.expiry token).bind fun limit =>
        let (f, t) := t.sleep (limit - t.now) f
        (t.tokens.cause t.now token).map fun cause => (f, t, .error (.cancelled cause))
    else
      match t.launcher.launch t.tokens t.now name view token resync f with
      | (f, launcher, .error e) => some (f, { t with launcher }, .error e)
      | (f, launcher, .ok loop) =>
        let (f, t) := { t with launcher }.settle f
        some (f, t, .ok loop)

end Timeline

end ScaleAdvisor
