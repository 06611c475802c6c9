import Gherkin.Proofs.Descent.Basic
import Gherkin.Proofs.Draft.Leaving

/-!
# Drafts and descents

What is read of an element by feeding lines to its draft until it leaves one (`readOut`) is what a
descent takes. An element inside of another is read out first, and the outer one goes on with the
lines that are left (`Nested.readOut_eq`). A loop agrees with a draft if each of its turns does
(`agrees_loop`): it ends where the draft leaves the line, it breaks off with the violation that the
draft finds, and it goes on with lines after which the draft still matches it. A turn that reads an
element inside agrees if the descent into that element does (`turnAgrees_of_nested`).
-/

namespace Gherkin

/-- Feeds lines to an element until it leaves one, and closes it: what it has become, and the lines
that are left. -/
def readOut (feed : τ → Line → Verdict τ) (close : τ → Except Violation α) :
    τ → List Line → Except Violation (α × List Line)
  | t, [] => do return (← close t, [])
  | t, l :: ls =>
    match feed t l with
    | .takes t => readOut feed close t ls
    | .leaves => do return (← close t, l :: ls)
    | .rejects v => .error v

section ReadOut

variable {feed : τ → Line → Verdict τ} {close : τ → Except Violation α} {t t' : τ} {l : Line}
  {ls : List Line} {a : α} {v : Violation}

theorem readOut_nil (closed : close t = .ok a) : readOut feed close t [] = .ok (a, []) := by
  simp [readOut, closed, bind, Except.bind, pure, Except.pure]

theorem readOut_nil_of_open (lacking : close t = .error v) :
    readOut feed close t [] = .error v := by
  simp [readOut, lacking, bind, Except.bind]

theorem readOut_of_takes (h : feed t l = .takes t') :
    readOut feed close t (l :: ls) = readOut feed close t' ls := by
  simp [readOut, h]

theorem readOut_of_leaves (h : feed t l = .leaves) (closed : close t = .ok a) :
    readOut feed close t (l :: ls) = .ok (a, l :: ls) := by
  simp [readOut, h, closed, bind, Except.bind, pure, Except.pure]

theorem readOut_of_leaves_open (h : feed t l = .leaves) (lacking : close t = .error v) :
    readOut feed close t (l :: ls) = .error v := by
  simp [readOut, h, lacking, bind, Except.bind]

theorem readOut_of_rejects (h : feed t l = .rejects v) :
    readOut feed close t (l :: ls) = .error v := by
  simp [readOut, h]

end ReadOut

/-- An element inside of another, which becomes `outer s` by it: the outer one takes and rejects
what the inner one does. Once the inner one has ended as `a`, the outer one is `done a`. -/
structure Nested (feed : σ → Line → Verdict σ) (close : σ → Except Violation α)
    (feed' : τ → Line → Verdict τ) (close' : τ → Except Violation β) (outer : σ → τ)
    (done : α → τ) : Prop where
  takes {s s' : σ} {l : Line} (h : feed s l = .takes s') : feed' (outer s) l = .takes (outer s')
  rejects {s : σ} {l : Line} {v : Violation} (h : feed s l = .rejects v) :
    feed' (outer s) l = .rejects v
  leaves {s : σ} {l : Line} {a : α} (h : feed s l = .leaves) (closed : close s = .ok a) :
    feed' (outer s) l = feed' (done a) l
  leaves_open {s : σ} {l : Line} {v : Violation} (h : feed s l = .leaves)
    (lacking : close s = .error v) : feed' (outer s) l = .rejects v
  close_eq (s : σ) : close' (outer s) = (do close' (done (← close s)))

/-- The inner element is read out, and then the outer one. -/
theorem Nested.readOut_eq {feed : σ → Line → Verdict σ} {close : σ → Except Violation α}
    {feed' : τ → Line → Verdict τ} {close' : τ → Except Violation β} {outer : σ → τ}
    {done : α → τ} (h : Nested feed close feed' close' outer done) (s : σ) (ls : List Line) :
    readOut feed' close' (outer s) ls =
      (do let p ← readOut feed close s ls; readOut feed' close' (done p.1) p.2) := by
  induction ls generalizing s with
  | nil =>
    have closes := h.close_eq s
    cases closed : close s with
    | error v =>
      rw [closed] at closes
      rw [readOut_nil_of_open closed, readOut_nil_of_open closes]
      rfl
    | ok a =>
      rw [closed] at closes
      rw [readOut_nil closed, readOut, closes]
      rfl
  | cons l ls ih =>
    cases fed : feed s l with
    | takes s' => rw [readOut_of_takes fed, readOut_of_takes (h.takes fed), ih]
    | rejects v =>
      rw [readOut_of_rejects fed, readOut_of_rejects (h.rejects fed)]
      rfl
    | leaves =>
      cases closed : close s with
      | error v =>
        rw [readOut_of_leaves_open fed closed, readOut_of_rejects (h.leaves_open fed closed)]
        rfl
      | ok a =>
        have closes := h.close_eq s
        rw [closed] at closes
        rw [readOut_of_leaves fed closed]
        simp only [readOut, h.leaves fed closed, closes, bind, Except.bind]

namespace Descent

/-- What a descent takes is what is read out of a draft: the same value with the same lines left, or
the same violation. -/
inductive Agrees {ls : List Line} (descent : Except Halt (Taken ls α))
    (draft : Except Violation (α × List Line)) : Prop where
  | takes (t : Taken ls α) (descent_eq : descent = .ok t) (draft_eq : draft = .ok (t.value, t.rest))
  | breaksOff (v : Violation) (descent_eq : descent = .error (.violation v))
      (draft_eq : draft = .error v)

/-- What a turn of a loop does is what the draft does that matches the loop before it:
`Matches s t ls` says that the draft `t` matches `s` where the lines `ls` follow. -/
inductive TurnAgrees (feed : τ → Line → Verdict τ) (close : τ → Except Violation α)
    (finish : σ → Except Halt α) (Matches : σ → τ → List Line → Prop) (turn : Turn σ) (s : σ)
    (t : τ) (l : Line) (ls : List Line) : Prop where
  | ends (turn_eq : turn s l ls = .ok none) (left : feed t l = .leaves)
      (closes : finish s = (close t).mapError .violation)
  | goesOn (next : Taken ls σ) (t' : τ) (turn_eq : turn s l ls = .ok (some next))
      (draft_eq : readOut feed close t (l :: ls) = readOut feed close t' next.rest)
      (matched : Matches next.value t' next.rest)
  | breaksOff (v : Violation) (turn_eq : turn s l ls = .error (.violation v))
      (draft_eq : readOut feed close t (l :: ls) = .error v)

section Taken

variable {ls ms : List Line} {t : Taken ls σ} {f : σ → Except Halt α} {a : α} {h : Halt}

theorem Taken.andThen_of_ok (made : f t.value = .ok a) :
    t.andThen f = .ok ⟨a, t.rest, t.isSuffix⟩ := by
  simp [andThen, made, bind, Except.bind, pure, Except.pure]

theorem Taken.andThen_of_error (broken : f t.value = .error h) : t.andThen f = .error h := by
  simp [andThen, broken, bind, Except.bind]

theorem Taken.andThen_within (longer : ls <:+ ms) :
    (t.within longer).andThen f = (t.andThen f).map (·.within longer) := by
  cases made : f t.value with
  | ok a => rw [andThen_of_ok made, andThen_of_ok (t := t.within longer) made]; rfl
  | error h => rw [andThen_of_error made, andThen_of_error (t := t.within longer) made]; rfl

/-- What is taken of lines is taken of lines that end with them. -/
theorem Agrees.within {descent : Except Halt (Taken ls α)}
    {draft : Except Violation (α × List Line)} (agrees : Agrees descent draft)
    (longer : ls <:+ ms) : Agrees (descent.map (·.within longer)) draft := by
  cases agrees with
  | takes t descent_eq draft_eq =>
    exact .takes (t.within longer) (by rw [descent_eq]; rfl) draft_eq
  | breaksOff v descent_eq draft_eq => exact .breaksOff v (by rw [descent_eq]; rfl) draft_eq

end Taken

section Loop

variable {feed : τ → Line → Verdict τ} {close : τ → Except Violation α}
  {finish : σ → Except Halt α} {Matches : σ → τ → List Line → Prop} {turn : Turn σ} {s : σ} {t : τ}
  {l : Line} {ls : List Line}

theorem loop_nil : loop turn s [] = .ok (.nothing s) := by
  rw [loop]

theorem loop_of_ends (h : turn s l ls = .ok none) : loop turn s (l :: ls) = .ok (.nothing s) := by
  simp [loop, h, bind, Except.bind, pure, Except.pure]

theorem loop_of_goesOn {next : Taken ls σ} (h : turn s l ls = .ok (some next)) :
    loop turn s (l :: ls) = (loop turn next.value next.rest).map
      (·.within (next.isSuffix.trans (List.suffix_cons l ls))) := by
  rw [loop, h]
  simp only [bind, Except.bind]
  cases loop turn next.value next.rest <;> rfl

theorem loop_of_breaksOff {h : Halt} (broken : turn s l ls = .error h) :
    loop turn s (l :: ls) = .error h := by
  rw [loop, broken]
  rfl

/-- A turn agrees that takes just the line. -/
theorem TurnAgrees.of_takes (s' : σ) {t' : τ} (turn_eq : turn s l ls = .ok (some (.nothing s')))
    (fed : feed t l = .takes t') (matched : Matches s' t' ls) :
    TurnAgrees feed close finish Matches turn s t l ls :=
  .goesOn (.nothing s') t' turn_eq (readOut_of_takes fed) matched

/-- A turn agrees that breaks off at the line. -/
theorem TurnAgrees.of_rejects (v : Violation) (turn_eq : turn s l ls = .error (.violation v))
    (fed : feed t l = .rejects v) : TurnAgrees feed close finish Matches turn s t l ls :=
  .breaksOff v turn_eq (readOut_of_rejects fed)

/-- Where both end, they agree. -/
theorem agrees_of_closes (closes : finish s = (close t).mapError .violation) :
    Agrees ((Taken.nothing s : Taken ls σ).andThen finish) (do return (← close t, ls)) := by
  cases closed : close t with
  | ok a =>
    rw [closed] at closes
    exact .takes _ (Taken.andThen_of_ok closes) rfl
  | error v =>
    rw [closed] at closes
    exact .breaksOff v (Taken.andThen_of_error closes) rfl

/-- A loop agrees with a draft that matches it, if each turn does. -/
theorem agrees_loop (Matches : σ → τ → List Line → Prop)
    (ends : ∀ s t, Matches s t [] → finish s = (close t).mapError .violation)
    (turns : ∀ s t l ls, Matches s t (l :: ls) →
      TurnAgrees feed close finish Matches turn s t l ls)
    (matched : Matches s t ls) :
    Agrees (do (← loop turn s ls).andThen finish) (readOut feed close t ls) := by
  induction hn : ls.length using Nat.strongRecOn generalizing s t ls with
  | ind n ih =>
    cases ls with
    | nil =>
      rw [loop_nil]
      exact agrees_of_closes (ends s t matched)
    | cons l ls =>
      cases turns s t l ls matched with
      | ends turn_eq left closes =>
        rw [loop_of_ends turn_eq, readOut, left]
        exact agrees_of_closes closes
      | breaksOff v turn_eq draft_eq =>
        refine .breaksOff v ?_ draft_eq
        rw [loop_of_breaksOff turn_eq]
        rfl
      | goesOn next t' turn_eq draft_eq matched' =>
        have shorter : next.rest.length < n := by
          rw [← hn]
          exact Nat.lt_succ_of_le next.isSuffix.length_le
        have longer := next.isSuffix.trans (List.suffix_cons l ls)
        have rest := (ih _ shorter matched' rfl).within longer
        rw [loop_of_goesOn turn_eq, draft_eq]
        cases looped : loop turn next.value next.rest with
        | error h => rwa [looped] at rest
        | ok u =>
          rw [looped] at rest
          change Agrees ((u.within longer).andThen finish) _
          rw [Taken.andThen_within]
          exact rest

/-- The same of an element that may always end. -/
theorem agrees_loop_ok {close : τ → Except Violation σ} (Matches : σ → τ → List Line → Prop)
    (ends : ∀ s t, Matches s t [] → Except.ok s = (close t).mapError Halt.violation)
    (turns : ∀ s t l ls, Matches s t (l :: ls) → TurnAgrees feed close .ok Matches turn s t l ls)
    (matched : Matches s t ls) : Agrees (loop turn s ls) (readOut feed close t ls) := by
  have agrees := agrees_loop Matches ends turns matched
  cases looped : loop turn s ls with
  | ok u =>
    rw [looped] at agrees
    exact agrees
  | error h =>
    rw [looped] at agrees
    exact agrees

/-- A turn agrees that reads an element inside, which the draft begins at the line. -/
theorem turnAgrees_of_nested {feed' : ρ → Line → Verdict ρ} {close' : ρ → Except Violation β}
    {outer : ρ → τ} {done : β → τ} {inner : Except Halt (Taken ls β)} {r : ρ} {f : β → σ}
    (nested : Nested feed' close' feed close outer done) (begun : feed t l = .takes (outer r))
    (agrees : Agrees inner (readOut feed' close' r ls))
    (turn_eq : turn s l ls = (do return some ((← inner).map f)))
    (matched : ∀ b ms, Matches (f b) (done b) ms) :
    TurnAgrees feed close finish Matches turn s t l ls := by
  have inside := nested.readOut_eq r ls
  rw [← readOut_of_takes begun] at inside
  cases agrees with
  | takes u descent_eq draft_eq =>
    refine .goesOn (u.map f) (done u.value) ?_ ?_ (matched u.value u.rest)
    · rw [turn_eq, descent_eq]
      rfl
    · rw [inside, draft_eq]
      rfl
  | breaksOff v descent_eq draft_eq =>
    refine .breaksOff v ?_ ?_
    · rw [turn_eq, descent_eq]
      rfl
    · rw [inside, draft_eq]
      rfl

end Loop

end Descent

end Gherkin
