import ScaleAdvisor.Proofs.Scheduling.Tokens

/-!
What the cause of a token is, and when it changes. A token keeps a note of its own cancellation
only; that one above it has been cancelled, or that a time limit is over, is found out anew whenever
somebody asks. So a token can have several reasons to be over, one of them decides on the cause, and
a reason that comes up later can take its place.

* `Outranks`: its own cancellation goes first, then those above it, nearest first, then time limits
  that are over, farthest first;
* `Played.cause_eq_some_iff`: the cause is the text of the reason that outranks all the others;
* `Played.cause_upheld`: once there is a cause, only what outranks its reason puts another in its
  place.
-/

namespace ScaleAdvisor

def TokenClock.cause (s : TokenClock) (t : TokenId) : Option String := s.tokens.cause s.now t

namespace TokenMove

/-- The text with which a token is cancelled. -/
def reason (t : TokenId) : TokenMove → Option String
  | .cancel token cause => if token = t then some cause else none
  | .root | .child _ | .childWithTimeout _ _ _ | .wait _ => none

/-- For the token that is made, the text for when its time limit is over. -/
def limit : TokenMove → List (Option String)
  | .root | .child _ => [none]
  | .childWithTimeout _ _ cause => [some cause]
  | .cancel _ _ | .wait _ => []

end TokenMove

namespace Tokens

/-- The text with which the token itself was cancelled first. -/
def firstReason (moves : List TokenMove) (t : TokenId) : Option String :=
  moves.findSome? (·.reason t)

/-- The text that goes with the token's own time limit. -/
def limitText (moves : List TokenMove) (t : TokenId) : Option String :=
  (moves.flatMap (·.limit))[t]?.join

/-- Why a token is over. -/
inductive Source where
  | cancelled (token : TokenId)
  | expired (token : TokenId)

/-- The token is over for this reason, among others. -/
def Available (moves : List TokenMove) (t : TokenId) : Source → Prop
  | .cancelled u => Line moves t u ∧ Struck moves u
  | .expired u => Line moves t u ∧ Overdue moves u

/-- The text that the reason comes with. -/
def Source.text (moves : List TokenMove) : Source → Option String
  | .cancelled u => firstReason moves u
  | .expired u => limitText moves u

/-- The first reason goes before the second where a token has both. -/
def Outranks (moves : List TokenMove) : Source → Source → Prop
  | .cancelled u, .cancelled w => Above moves u w
  | .cancelled _, .expired _ => True
  | .expired _, .cancelled _ => False
  | .expired u, .expired w => Above moves w u

/-- The reason outranks all others for which the token is over. -/
structure Decides (moves : List TokenMove) (t : TokenId) (x : Source) : Prop where
  available : Available moves t x
  first : ∀ y, Available moves t y → y = x ∨ Outranks moves x y

section History

variable {moves later : List TokenMove} {t u p : TokenId} {x y : Source} {text : String}

theorem line_iff : Line moves t u ↔ u = t ∨ Above moves t u := by
  constructor
  · rintro (_ | ⟨parent, higher⟩)
    · exact .inl rfl
    · exact .inr ⟨_, parent, higher⟩
  · rintro (rfl | ⟨p, parent, higher⟩)
    · exact .self u
    · exact .up parent higher

theorem Above.append (above : Above moves t u) : Above (moves ++ later) t u := by
  obtain ⟨p, parent, higher⟩ := above
  exact ⟨p, birth_append_of_parent parent, higher.append⟩

theorem Available.append (available : Available moves t x) : Available (moves ++ later) t x := by
  cases x with
  | cancelled u => exact ⟨available.1.append, struck_append.mpr (.inl available.2)⟩
  | expired u => exact ⟨available.1.append, available.2.append⟩

theorem Outranks.append (outranks : Outranks moves x y) : Outranks (moves ++ later) x y := by
  match x, y, outranks with
  | .cancelled _, .cancelled _, above => exact Above.append above
  | .cancelled _, .expired _, _ => trivial
  | .expired _, .expired _, above => exact Above.append above

/-- A text that is there stays. -/
theorem Source.text_append (said : x.text moves = some text) :
    x.text (moves ++ later) = some text := by
  cases x with
  | cancelled u =>
    have said : firstReason moves u = some text := said
    rw [Source.text, firstReason, List.findSome?_append, ← firstReason, said, Option.some_or]
  | expired u =>
    have there : (moves.flatMap (·.limit))[u]? = some (some text) := Option.join_eq_some_iff.mp said
    rw [Source.text, limitText, List.flatMap_append,
      List.getElem?_append_left (List.getElem?_eq_some_iff.mp there).1, there, Option.join_some]

/-- What a parent is over for, its children are over for too. -/
theorem Available.of_parent (parent : (birth moves t).parent = some p)
    (available : Available moves p x) : Available moves t x := by
  cases x with
  | cancelled u => exact ⟨.up parent available.1, available.2⟩
  | expired u => exact ⟨.up parent available.1, available.2⟩

/-- A token is over for what it is itself, or for what its parent is over for. -/
theorem Available.own_or_parent (available : Available moves t x) :
    (x = .cancelled t ∧ Struck moves t) ∨ (x = .expired t ∧ Overdue moves t) ∨
      ∃ p, (birth moves t).parent = some p ∧ Available moves p x := by
  cases x with
  | cancelled u =>
    obtain ⟨_ | ⟨parent, higher⟩, struck⟩ := available
    · exact .inl ⟨rfl, struck⟩
    · exact .inr (.inr ⟨_, parent, higher, struck⟩)
  | expired u =>
    obtain ⟨_ | ⟨parent, higher⟩, overdue⟩ := available
    · exact .inr (.inl ⟨rfl, overdue⟩)
    · exact .inr (.inr ⟨_, parent, higher, overdue⟩)

/-- A token that was cancelled itself has that for its cause. -/
theorem Decides.of_struck (struck : Struck moves t) : Decides moves t (.cancelled t) where
  available := ⟨.self t, struck⟩
  first
    | .cancelled _, available => (line_iff.mp available.1).imp (congrArg _) id
    | .expired _, _ => .inr trivial

/-- A token that was not has its parent's cause. -/
theorem Decides.of_parent (unstruck : ¬ Struck moves t) (parent : (birth moves t).parent = some p)
    (decides : Decides moves p x) : Decides moves t x where
  available := decides.available.of_parent parent
  first y available := by
    obtain ⟨_, struck⟩ | ⟨rfl, _⟩ | ⟨q, same, higher⟩ := available.own_or_parent
    · exact absurd struck unstruck
    · -- Its own time limit goes after all that comes from above.
      cases x with
      | cancelled w => exact .inr trivial
      | expired w => exact .inr ⟨p, parent, decides.available.1⟩
    · rw [parent, Option.some.injEq] at same
      exact decides.first y (same ▸ higher)

/-- A token that has only its time limit has that for its cause. -/
theorem Decides.of_overdue (unstruck : ¬ Struck moves t) (overdue : Overdue moves t)
    (going : ∀ p y, (birth moves t).parent = some p → ¬ Available moves p y) :
    Decides moves t (.expired t) where
  available := ⟨.self t, overdue⟩
  first y available := by
    obtain ⟨_, struck⟩ | ⟨rfl, _⟩ | ⟨p, parent, higher⟩ := available.own_or_parent
    · exact absurd struck unstruck
    · exact .inl rfl
    · exact absurd higher (going p y parent)

end History

/-- The tokens carry the texts that they were given. -/
structure Told (moves : List TokenMove) (s : TokenClock) : Prop where
  size : (moves.flatMap (·.limit)).length = s.tokens.tokens.size
  reason : ∀ t, (s.tokens.token t).cause = firstReason moves t
  limit : ∀ t, (s.tokens.token t).deadline.map (·.cause) = limitText moves t

section Steps

variable {moves : List TokenMove} {s : TokenClock} {m : TokenMove}

theorem firstReason_append (moves : List TokenMove) (m : TokenMove) (t : TokenId) :
    firstReason (moves ++ [m]) t = (firstReason moves t).or (m.reason t) := by
  rw [firstReason, List.findSome?_append, ← firstReason]
  simp [List.findSome?_cons, Option.or]
  cases m.reason t <;> rfl

/-- A move that makes no token gives no text for a time limit. -/
theorem limitText_append_nil (made : m.limit = []) (t : TokenId) :
    limitText (moves ++ [m]) t = limitText moves t := by
  simp [limitText, made]

/-- Nobody has cancelled a token that is not there. -/
theorem Told.firstReason_new (told : Told moves s) :
    firstReason moves s.tokens.tokens.size = none := by
  rw [← told.reason, TokenForest.token, Array.getElem?_size]
  rfl

theorem Told.start : Told [] {} where
  size := rfl
  reason _ := rfl
  limit _ := rfl

/-- One more token is made. -/
theorem Told.add (told : Told moves s) {new : CancelToken}
    (made : m.limit = [new.deadline.map (·.cause)]) (silent : ∀ t, m.reason t = none)
    (uncancelled : new.cause = none) :
    Told (moves ++ [m]) { s with tokens := (s.tokens.add new).1 } where
  size := by
    rw [List.flatMap_append, List.length_append, told.size]
    simp [made, TokenForest.add]
  reason t := by
    rw [firstReason_append, silent, Option.or_none, token_add]
    split
    · rename_i here
      rw [here, uncancelled, told.firstReason_new]
    · exact told.reason t
  limit t := by
    rw [token_add, limitText, List.flatMap_append]
    split
    · rename_i here
      simp [here, ← told.size, made]
    · rename_i other
      rw [told.limit, limitText]
      obtain old | beyond := Nat.lt_or_gt_of_ne (told.size ▸ other)
      · rw [List.getElem?_append_left old]
      · rw [List.getElem?_eq_none (Nat.le_of_lt beyond), List.getElem?_eq_none]
        rw [List.length_append]
        simpa [made] using Nat.succ_le_of_lt beyond

/-- A token keeps the text with which it was cancelled first. -/
theorem Told.cancel (told : Told moves s) {t : TokenId} (cause : String)
    (there : t < s.tokens.tokens.size) :
    Told (moves ++ [.cancel t cause]) { s with tokens := s.tokens.cancel t cause } where
  size := by
    rw [List.flatMap_append, List.length_append, told.size]
    exact Array.size_modify.symm
  reason u := by
    rw [firstReason_append, ← told.reason, token_cancel _ _ _ _ there, TokenMove.reason]
    split
    · rename_i here
      rw [if_pos here.symm, here]
    · rename_i other
      rw [if_neg (Ne.symm other), Option.or_none]
  limit u := by
    rw [limitText_append_nil rfl, (token_cancel_keeps _ _ u cause there).2]
    exact told.limit u

theorem Told.wait (told : Told moves s) (ms : Nat) :
    Told (moves ++ [.wait ms]) { s with now := s.now + ms } where
  size := by
    rw [List.flatMap_append, List.length_append, told.size]
    rfl
  reason t := by
    rw [firstReason_append, TokenMove.reason, Option.or_none]
    exact told.reason t
  limit t := by
    rw [limitText_append_nil rfl]
    exact told.limit t

theorem Told.move (told : Told moves s) (known : ∀ t ∈ m.about, t < s.tokens.tokens.size) :
    Told (moves ++ [m]) (m.apply s) := by
  cases m with
  | root => exact told.add rfl (fun _ => rfl) rfl
  | child parent => exact told.add rfl (fun _ => rfl) rfl
  | childWithTimeout parent timeout cause => exact told.add rfl (fun _ => rfl) rfl
  | cancel token cause => exact told.cancel cause (known token rfl)
  | wait ms => exact told.wait ms

theorem Played.told (played : Played moves s) : Told moves s := by
  induction played with
  | start => exact .start
  | move _ known ih => exact ih.move known

end Steps

section Causes

variable {moves : List TokenMove} {s : TokenClock} {t u : TokenId} {x y : Source} {cause : String}

theorem Played.struck_iff (played : Played moves s) :
    Struck moves t ↔ (firstReason moves t).isSome := by
  rw [← played.faithful.struck, played.told.reason]

/-- A cause is the token's own, or its parent's, or that of its time limit. -/
theorem Played.cause_eq (played : Played moves s) (t : TokenId) :
    s.cause t = (firstReason moves t).or (((birth moves t).parent.bind s.cause).or
      ((s.tokens.token t).deadline.bind (·.causeAt s.now))) := by
  have above : CancelToken.causeAt s.now ((s.tokens.token t).above.map s.tokens.token) =
      (birth moves t).parent.bind s.cause := by
    cases parent : (birth moves t).parent with
    | none =>
      rw [played.faithful.orphan t parent, Option.bind_none, List.map_nil, CancelToken.causeAt]
    | some p =>
      rw [played.faithful.above t p parent, Option.bind_some, TokenClock.cause, TokenForest.cause,
        TokenForest.line, List.map_cons]
  rw [TokenClock.cause, TokenForest.cause, TokenForest.line, CancelToken.causeAt, above,
    ← played.told.reason]
  cases (s.tokens.token t).cause <;> cases (birth moves t).parent.bind s.cause <;> rfl

/-- The time limit of a token gives it a cause once it is over. -/
theorem Played.deadline_causeAt (played : Played moves s)
    (found : (s.tokens.token t).deadline.bind (·.causeAt s.now) = some cause) :
    Overdue moves t ∧ limitText moves t = some cause := by
  obtain ⟨deadline, own, passed⟩ := Option.bind_eq_some_iff.mp found
  rw [Deadline.causeAt, Option.ite_none_right_eq_some, Option.some.injEq] at passed
  refine ⟨played.faithful.overdue_iff.mp ⟨deadline.time, by simp [own], passed.1⟩, ?_⟩
  rw [← played.told.limit, own, Option.map_some, passed.2]

theorem Played.isSome_cause (played : Played moves s) (available : Available moves t x) :
    (s.cause t).isSome := by
  refine played.faithful.isCancelled_iff.mpr ?_
  cases x with
  | cancelled u => exact ⟨u, available.1, .inl available.2⟩
  | expired u => exact ⟨u, available.1, .inr available.2⟩

/-- The cause is the text of a reason that outranks all others. -/
theorem Played.decided (played : Played moves s) (found : s.cause t = some cause) :
    ∃ x, Decides moves t x ∧ x.text moves = some cause := by
  -- Parents are made before their children.
  induction t using Nat.strongRecOn with
  | ind t ih =>
    rw [played.cause_eq] at found
    cases own : firstReason moves t with
    | some reason =>
      rw [own, Option.some_or, Option.some.injEq] at found
      have struck : Struck moves t := by simp [played.struck_iff, own]
      exact ⟨.cancelled t, .of_struck struck, own.trans (congrArg _ found)⟩
    | none =>
      have unstruck : ¬ Struck moves t := by simp [played.struck_iff, own]
      rw [own, Option.none_or] at found
      cases higher : (birth moves t).parent.bind s.cause with
      | some reason =>
        rw [higher, Option.some_or, Option.some.injEq] at found
        obtain ⟨p, parent, above⟩ := Option.bind_eq_some_iff.mp higher
        have older := played.faithful.earlier t p parent
        obtain ⟨x, decides, said⟩ := ih p older (above.trans (congrArg _ found))
        exact ⟨x, decides.of_parent unstruck parent, said⟩
      | none =>
        rw [higher, Option.none_or] at found
        obtain ⟨overdue, said⟩ := played.deadline_causeAt found
        refine ⟨.expired t, .of_overdue unstruck overdue ?_, said⟩
        intro p y parent available
        rw [parent, Option.bind_some] at higher
        simpa [higher] using played.isSome_cause available

theorem Faithful.le_of_line (faithful : Faithful moves s) (line : Line moves t u) : u ≤ t := by
  induction line with
  | self t => exact Nat.le_refl t
  | up parent _ ih => exact Nat.le_trans ih (Nat.le_of_lt (faithful.earlier _ _ parent))

theorem Faithful.lt_of_above (faithful : Faithful moves s) (above : Above moves t u) : u < t := by
  obtain ⟨p, parent, higher⟩ := above
  exact Nat.lt_of_le_of_lt (faithful.le_of_line higher) (faithful.earlier t p parent)

theorem Faithful.outranks_asymm (faithful : Faithful moves s) (outranks : Outranks moves x y) :
    ¬ Outranks moves y x := by
  intro back
  match x, y, outranks, back with
  | .cancelled _, .cancelled _, above, below | .expired _, .expired _, above, below =>
    exact Nat.lt_asymm (faithful.lt_of_above above) (faithful.lt_of_above below)

theorem Played.decides_unique (played : Played moves s) (first : Decides moves t x)
    (second : Decides moves t y) : x = y := by
  obtain same | outranks := first.first y second.available
  · exact same.symm
  · obtain same | back := second.first x first.available
    · exact same
    · exact absurd back (played.faithful.outranks_asymm outranks)

/-- The cause of a token is the text of the reason that outranks all others. -/
theorem Played.cause_eq_some_iff (played : Played moves s) :
    s.cause t = some cause ↔ ∃ x, Decides moves t x ∧ x.text moves = some cause := by
  refine ⟨played.decided, ?_⟩
  rintro ⟨x, decides, said⟩
  obtain ⟨cause', found⟩ := Option.isSome_iff_exists.mp (played.isSome_cause decides.available)
  obtain ⟨y, decides', said'⟩ := played.decided found
  obtain rfl := played.decides_unique decides decides'
  rw [found, ← said', said]

end Causes

/-- Another reason has come up since, and outranks the first. -/
structure Overtakes (moves moves' : List TokenMove) (t : TokenId) (x y : Source) : Prop where
  new : ¬ Available moves t y
  available : Available moves' t y
  outranks : Outranks moves' y x

/-- What becomes of a cause that a token had for a reason when more has been done. -/
structure Upheld (moves moves' : List TokenMove) (s' : TokenClock) (t : TokenId) (x : Source)
    (cause : String) : Prop where
  /-- It stays, whatever is cancelled and runs out of time, while nothing outranks its reason. -/
  kept : (¬ ∃ y, Overtakes moves moves' t x y) → s'.cause t = some cause
  /-- Else the highest in rank of what has come up takes its place. -/
  outranked : (∃ y, Overtakes moves moves' t x y) → ∃ y text, Overtakes moves moves' t x y ∧
    Decides moves' t y ∧ y.text moves' = some text ∧ s'.cause t = some text
  /-- The cause of a token that was cancelled itself is the same for good. -/
  final : Struck moves t → s'.cause t = some cause

section Later

variable {moves later : List TokenMove} {s s' : TokenClock} {t : TokenId} {x y : Source}
  {cause : String}

/-- Of what has come up since, that which decides is the same as before or outranks it. -/
theorem Played.eq_or_overtakes (played' : Played (moves ++ later) s') (before : Decides moves t x)
    (now : Decides (moves ++ later) t y) : y = x ∨ Overtakes moves (moves ++ later) t x y := by
  obtain same | outranks := now.first x before.available.append
  · exact .inl same.symm
  · refine .inr ⟨fun old => ?_, now.available, outranks⟩
    obtain rfl | back := before.first y old
    · exact played'.faithful.outranks_asymm outranks outranks
    · exact played'.faithful.outranks_asymm outranks back.append

/-- Nothing decides that is outranked. -/
theorem Played.not_overtakes (played' : Played (moves ++ later) s')
    (now : Decides (moves ++ later) t x) : ¬ Overtakes moves (moves ++ later) t x y := by
  intro overtakes
  obtain rfl | outranks := now.first y overtakes.available
  · exact played'.faithful.outranks_asymm overtakes.outranks overtakes.outranks
  · exact played'.faithful.outranks_asymm outranks overtakes.outranks

/-- A token that has a cause has one ever after, and only what outranks the reason for it puts
another in its place. -/
theorem Played.cause_upheld (played : Played moves s) (played' : Played (moves ++ later) s')
    (found : s.cause t = some cause) :
    ∃ x, Decides moves t x ∧ x.text moves = some cause ∧
      Upheld moves (moves ++ later) s' t x cause := by
  obtain ⟨x, before, said⟩ := played.decided found
  obtain ⟨cause', found'⟩ :=
    Option.isSome_iff_exists.mp (played'.isSome_cause before.available.append)
  obtain ⟨y, now, said'⟩ := played'.decided found'
  have kept (same : y = x) : s'.cause t = some cause := by
    rw [found', ← said', same, Source.text_append said]
  have outcome := played'.eq_or_overtakes before now
  refine ⟨x, before, said, ?_, ?_, ?_⟩
  · exact fun none => kept (outcome.resolve_right fun overtakes => none ⟨y, overtakes⟩)
  · rintro ⟨z, overtakes⟩
    obtain rfl | overtakes' := outcome
    · exact absurd overtakes (played'.not_overtakes now)
    · exact ⟨y, cause', overtakes', now, said', found'⟩
  · intro struck
    obtain rfl := played.decides_unique before (.of_struck struck)
    exact kept (played'.decides_unique now (.of_struck (struck_append.mpr (.inl struck))))

/-- A step that runs out of time before its run does. -/
def stepOver : List TokenMove :=
  [.root, .childWithTimeout 0 50 "run over", .childWithTimeout 1 20 "step over", .wait 20]

/-- The run is over too, and then it is stopped. -/
theorem cause_upheld_stopped :
    ∃ (s s' : TokenClock) (x : Source), Played stepOver s ∧ s.cause 2 = some "step over" ∧
      Upheld stepOver (stepOver ++ [.wait 30, .cancel 0 "stop"]) s' 2 x "step over" ∧
      s'.cause 2 = some "stop" := by
  have played : Played ([] ++ [.root] ++ [.childWithTimeout 0 50 "run over"] ++
      [.childWithTimeout 1 20 "step over"] ++ [.wait 20]) _ :=
    .move (.move (.move (.move .start (by decide)) (by decide)) (by decide)) (by decide)
  have played' : Played (stepOver ++ [.wait 30] ++ [.cancel 0 "stop"]) _ :=
    .move (.move played (by decide)) (by decide)
  rw [List.append_assoc] at played'
  obtain ⟨x, -, -, upheld⟩ := Played.cause_upheld (t := 2) played played' rfl
  exact ⟨_, _, x, played, rfl, upheld, rfl⟩

/-- A cause is not final. A token whose time is over has another one once its parent is
cancelled. -/
theorem cause_not_final :
    ¬ ∀ (moves later : List TokenMove) (s s' : TokenClock) (t : TokenId) (cause : String),
      Played moves s → Played (moves ++ later) s' →
        s.cause t = some cause → s'.cause t = some cause := by
  intro final
  have played : Played ([] ++ [.root] ++ [.childWithTimeout 0 50 "timeout"] ++ [.wait 50]) _ :=
    .move (.move (.move .start (by decide)) (by decide)) (by decide)
  have played' : Played (_ ++ [.cancel 0 "shutdown"]) _ := .move played (by decide)
  exact absurd (final _ _ _ _ 1 "timeout" played played' rfl) (by decide)

end Later

end Tokens

end ScaleAdvisor
