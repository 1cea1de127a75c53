import ScaleAdvisor.Text.Quoted

/-!
Cancellation tokens. A token may be a child of another one and may have a deadline; it counts as
cancelled once it is cancelled itself, once a token above it is, or once its deadline is reached. Of
several causes its own comes first, then that of the token above, then the deadline's. Times are
milliseconds of one clock.
-/

namespace ScaleAdvisor

/-- The place of a token among all tokens. -/
abbrev TokenId := Nat

structure Deadline where
  time : Nat
  cause : String
  deriving DecidableEq, Repr

structure CancelToken where
  /-- The tokens above it, nearest first. -/
  above : List TokenId := []
  deadline : Option Deadline := none
  /-- The cause of the first explicit cancellation. -/
  cause : Option String := none
  deriving DecidableEq, Repr

def Deadline.causeAt (d : Deadline) (now : Nat) : Option String :=
  if d.time ≤ now then some d.cause else none

namespace CancelToken

/-- The cause that a token has at a time, given the token and those above it, nearest first. -/
def causeAt (now : Nat) : List CancelToken → Option String
  | [] => none
  | t :: above =>
    match t.cause with
    | some cause => some cause
    | none =>
      match causeAt now above with
      | some cause => some cause
      | none => t.deadline.bind (·.causeAt now)

/-- The first time at which one of the tokens reaches its deadline. -/
def expiry (line : List CancelToken) : Option Nat :=
  (line.filterMap fun t => t.deadline.map (·.time)).min?

end CancelToken

/-- All tokens. -/
structure TokenForest where
  tokens : Array CancelToken := #[]

namespace TokenForest

def token (f : TokenForest) (t : TokenId) : CancelToken := (f.tokens[t]?).getD {}

/-- The token and those above it, nearest first. -/
def line (f : TokenForest) (t : TokenId) : List CancelToken :=
  f.token t :: (f.token t).above.map f.token

def cause (f : TokenForest) (now : Nat) (t : TokenId) : Option String :=
  CancelToken.causeAt now (f.line t)

/-- How a token is shown in logs. -/
def describe (f : TokenForest) (now : Nat) (t : TokenId) : String :=
  let cause := match f.cause now t with
    | some cause => "Some(" ++ Text.quoted cause ++ ")"
    | none => "None"
  "CancelToken \x7b cause: " ++ cause ++ " \x7d"

def isCancelled (f : TokenForest) (now : Nat) (t : TokenId) : Bool := (f.cause now t).isSome

/-- Cancelled by its own deadline alone. -/
def deadlineExpired (f : TokenForest) (now : Nat) (t : TokenId) : Bool :=
  (f.token t).cause.isNone && (CancelToken.causeAt now ((f.token t).above.map f.token)).isNone &&
    (f.token t).deadline.any fun d => d.time ≤ now

/-- The first deadline that the token or one above it reaches. -/
def expiry (f : TokenForest) (t : TokenId) : Option Nat := CancelToken.expiry (f.line t)

def add (f : TokenForest) (t : CancelToken) : TokenForest × TokenId :=
  (⟨f.tokens.push t⟩, f.tokens.size)

def root (f : TokenForest) : TokenForest × TokenId := f.add {}

def child (f : TokenForest) (parent : TokenId) : TokenForest × TokenId :=
  f.add { above := parent :: (f.token parent).above }

def childWithDeadline (f : TokenForest) (parent : TokenId) (deadline : Deadline) :
    TokenForest × TokenId :=
  f.add { above := parent :: (f.token parent).above, deadline := some deadline }

/-- Cancel a token. A token that has been cancelled keeps its first cause. -/
def cancel (f : TokenForest) (t : TokenId) (cause : String) : TokenForest :=
  ⟨f.tokens.modify t fun token => { token with cause := token.cause.or (some cause) }⟩

/-- When and why the token is cancelled if nobody cancels any, unless that is after `limit`. -/
def await (f : TokenForest) (now limit : Nat) (t : TokenId) : Option (Nat × String) :=
  match f.cause now t with
  | some cause => some (now, cause)
  | none => ((f.expiry t).filter (· ≤ limit)).bind fun time => (f.cause time t).map (time, ·)

end TokenForest

end ScaleAdvisor
