import Rio.Bytecode.Mnemonic

/-!
# What a run shows

A script and the screenplay made from it are two programs for two machines. What they have in
common is what a player sees: comparisons, pauses, and how the run is left. A machine is given by
its moves. A move may be silent, it may show an event, and it may ask how a comparison comes out;
an oracle that knows all that was seen so far gives the answer.

The events seen after `n` moves grow with `n`. `Shows` collects everything that some number of moves
shows, so it tells a run that stops from one that goes on for ever, and it does not count moves.

> `shows_iff_of_simulates`: if the second machine, after some silent moves, answers each move of the
> first by a move of the same kind, then the two show the same from related states.
-/

namespace Rio

/-- What is seen of a run. -/
inductive Event where
  /-- A flag is compared with a number. -/
  | compare (reference : String) (cmp : Comparison) (value : Int)
  | pause (ms : Int)
  /-- The run goes on in another script. -/
  | leave (label : String)
  | ret
  /-- The run comes to the end of the script. -/
  | finish
  /-- The run cannot go on. -/
  | stuck
deriving Repr, DecidableEq

/-- Answers a comparison, given all that was seen up to it. -/
abbrev Oracle := List Event → Bool

/-- What a machine does next. -/
inductive Move (σ : Type) where
  | go (next : σ)
  | tell (e : Event) (next : σ)
  | ask (e : Event) (yes no : σ)
  | stop (e : Event)

/-- A run: where it stands, if it has not stopped, and what it has shown. -/
structure Run (σ : Type) where
  control : Option σ
  seen : List Event

variable {σ τ : Type}

/-- The run after a move. -/
def Move.apply (oracle : Oracle) (seen : List Event) : Move σ → Run σ
  | go next => ⟨some next, seen⟩
  | tell e next => ⟨some next, seen ++ [e]⟩
  | ask e yes no => ⟨some (if oracle (seen ++ [e]) then yes else no), seen ++ [e]⟩
  | stop e => ⟨none, seen ++ [e]⟩

namespace Run

/-- One move; a run that has stopped stays as it is. -/
def step (move : σ → Move σ) (oracle : Oracle) (r : Run σ) : Run σ :=
  match r.control with
  | none => r
  | some s => (move s).apply oracle r.seen

/-- A number of moves. -/
def after (move : σ → Move σ) (oracle : Oracle) (r : Run σ) : Nat → Run σ
  | 0 => r
  | n + 1 => (after move oracle r n).step move oracle

/-- A run that starts. -/
def start (s : σ) : Run σ :=
  ⟨some s, []⟩

end Run

/-- Events that a machine shows, one after the other, from the start on. -/
def Shows (move : σ → Move σ) (s : σ) (oracle : Oracle) (events : List Event) : Prop :=
  ∃ n, events <+: ((Run.start s).after move oracle n).seen

/-! ## Runs grow -/

section

variable {move : σ → Move σ} {oracle : Oracle}

/-- A step adds to what is seen. -/
theorem Run.seen_step (r : Run σ) : r.seen <+: (r.step move oracle).seen := by
  unfold Run.step
  split
  · exact List.prefix_rfl
  · next s _ =>
    cases move s with
    | go next => exact List.prefix_rfl
    | tell e next => exact List.prefix_append _ _
    | ask e yes no => exact List.prefix_append _ _
    | stop e => exact List.prefix_append _ _

/-- A run may be stopped and taken up again. -/
theorem Run.after_add (r : Run σ) (m n : Nat) :
    r.after move oracle (m + n) = (r.after move oracle m).after move oracle n := by
  induction n with
  | zero => rfl
  | succ n ih =>
    show (r.after move oracle (m + n)).step move oracle = _
    rw [ih]
    rfl

/-- By induction on the steps, so does a run. -/
theorem Run.seen_after (r : Run σ) (n : Nat) : r.seen <+: (r.after move oracle n).seen := by
  induction n with
  | zero => exact List.prefix_rfl
  | succ n ih => exact ih.trans (Run.seen_step _)

end

/-! ## Simulation -/

/-- Some silent moves lead from one state to another. -/
inductive Silent (move : σ → Move σ) : σ → σ → Prop where
  | refl (s : σ) : Silent move s s
  | go {s next s' : σ} : move s = .go next → Silent move next s' → Silent move s s'

/-- Moves of the same kind, with the same event, to related states. -/
inductive Move.Agrees (R : σ → τ → Prop) : Move σ → Move τ → Prop where
  | go {s : σ} {t : τ} : R s t → Agrees R (.go s) (.go t)
  | tell {s : σ} {t : τ} (e : Event) : R s t → Agrees R (.tell e s) (.tell e t)
  | ask {yes no : σ} {yes' no' : τ} (e : Event) :
      R yes yes' → R no no' → Agrees R (.ask e yes no) (.ask e yes' no')
  | stop (e : Event) : Agrees R (.stop e) (.stop e)

/-- The second machine answers each move of the first. -/
def Simulates (move : σ → Move σ) (move' : τ → Move τ) (R : σ → τ → Prop) : Prop :=
  ∀ s t, R s t → ∃ t', Silent move' t t' ∧ (move s).Agrees R (move' t')

/-- Runs that stand at related states, or have both stopped, and have shown the same. -/
inductive Run.Agrees (R : σ → τ → Prop) : Run σ → Run τ → Prop where
  | running {s : σ} {t : τ} (seen : List Event) : R s t → Agrees R ⟨some s, seen⟩ ⟨some t, seen⟩
  | stopped (seen : List Event) : Agrees R ⟨none, seen⟩ ⟨none, seen⟩

section

variable {move : σ → Move σ} {move' : τ → Move τ} {R : σ → τ → Prop} {oracle : Oracle}

theorem Run.Agrees.seen_eq {r : Run σ} {r' : Run τ} (h : Run.Agrees R r r') : r.seen = r'.seen := by
  cases h <;> rfl

/-- A silent way is a number of steps in which nothing is seen. -/
theorem Silent.exists_after {t t' : τ} (h : Silent move' t t') (oracle : Oracle)
    (seen : List Event) :
    ∃ n, Run.after move' oracle ⟨some t, seen⟩ n = ⟨some t', seen⟩ := by
  induction h with
  | refl t => exact ⟨0, rfl⟩
  | @go s next s' hmove _ ih =>
    obtain ⟨n, hn⟩ := ih
    refine ⟨1 + n, ?_⟩
    have hfirst : Run.after move' oracle ⟨some s, seen⟩ 1 = ⟨some next, seen⟩ := by
      show (move' s).apply oracle seen = _
      rw [hmove]
      rfl
    rw [Run.after_add, hfirst, hn]

/-- Moves that agree are answered alike by any oracle. -/
theorem Move.Agrees.apply {m : Move σ} {m' : Move τ} (h : m.Agrees R m') (seen : List Event) :
    Run.Agrees R (m.apply oracle seen) (m'.apply oracle seen) := by
  cases h with
  | go h => exact .running _ h
  | tell e h => exact .running _ h
  | ask e hyes hno =>
    show Run.Agrees R ⟨some (if _ then _ else _), _⟩ ⟨some (if _ then _ else _), _⟩
    split
    · exact .running _ hyes
    · exact .running _ hno
  | stop e => exact .stopped _

/-- A move of the first machine is answered by at least one move of the second. -/
theorem Run.Agrees.step (hsim : Simulates move move' R) {r : Run σ} {r' : Run τ}
    (h : Run.Agrees R r r') (oracle : Oracle) :
    ∃ n, Run.Agrees R (r.step move oracle) (r'.after move' oracle (n + 1)) := by
  cases h with
  | stopped seen => exact ⟨0, .stopped seen⟩
  | @running s t seen h =>
    obtain ⟨t', hsilent, hagrees⟩ := hsim s t h
    obtain ⟨n, hn⟩ := hsilent.exists_after oracle seen
    refine ⟨n, ?_⟩
    show Run.Agrees R ((move s).apply oracle seen) ((Run.after move' oracle _ n).step move' oracle)
    rw [hn]
    exact hagrees.apply seen

/-- So many moves are answered by at least as many. -/
theorem Run.Agrees.after (hsim : Simulates move move' R) {r : Run σ} {r' : Run τ}
    (h : Run.Agrees R r r') (oracle : Oracle) (n : Nat) :
    ∃ m, n ≤ m ∧ Run.Agrees R (r.after move oracle n) (r'.after move' oracle m) := by
  induction n with
  | zero => exact ⟨0, Nat.le_refl 0, h⟩
  | succ n ih =>
    obtain ⟨m, hle, hm⟩ := ih
    obtain ⟨k, hk⟩ := hm.step hsim oracle
    refine ⟨m + (k + 1), by omega, ?_⟩
    rw [Run.after_add r' m]
    exact hk

/-- Machines of which one simulates the other show the same. -/
theorem shows_iff_of_simulates (hsim : Simulates move move' R) {s : σ} {t : τ} (h : R s t)
    (oracle : Oracle) (events : List Event) :
    Shows move s oracle events ↔ Shows move' t oracle events := by
  have hruns : Run.Agrees R (Run.start s) (Run.start t) := .running [] h
  constructor
  · rintro ⟨n, hn⟩
    obtain ⟨m, -, hm⟩ := hruns.after hsim oracle n
    exact ⟨m, hm.seen_eq ▸ hn⟩
  · rintro ⟨n, hn⟩
    -- the answer to `n` moves takes at least `n` moves, so it has shown no less
    obtain ⟨m, hle, hm⟩ := hruns.after hsim oracle n
    obtain ⟨k, rfl⟩ := Nat.le.dest hle
    refine ⟨n, ?_⟩
    rw [hm.seen_eq, Run.after_add]
    exact hn.trans (Run.seen_after _ k)

end

end Rio
