import Mathlib.Data.List.Forall2
import Mathlib.Data.List.Induction
import Mathlib.Tactic.Common

/-!
# Deterministic machines whose operations can fail

A machine executes one operation at a time. An operation yields the next state and an
output, or an error that ends the run (`Machine.exec`). A run of a list of operations
collects the outputs (`Machine.run`).

Six ways to reason about a run from what one operation does. `run_history` carries an
invariant over the state and the history of operations with their outputs. `run_calls`
takes a machine that works by calling another to the run of its calls. `run_rel`
carries a relation between two machines that answer every operation alike, failures
included, `run_map` is for a relation that is a function and holds along the run only, and
`run_of_drifts` lets a state wander along such a relation. `run_unwind`
compares two runs of one machine that differ in secret operations only : if secret
operations preserve a relation on either side and public ones preserve it together, the
public parts of the two histories agree, as far as both runs go (`run_unwind_prefix`).
-/

/-- A deterministic machine : the next state and the output of an operation, or its error. -/
structure Machine (S Op Out Err : Type*) where
  exec : S → Op → Except Err (S × Out)

namespace Machine

variable {S T Op Out Out' Err : Type*}

/-- Execute `ops` in order, collecting their outputs. The first error ends the run. -/
def run (M : Machine S Op Out Err) : S → List Op → Except Err (S × List Out)
  | s, [] => .ok (s, [])
  | s, op :: ops =>
    match M.exec s op with
    | .error e => .error e
    | .ok (s', o) =>
      match run M s' ops with
      | .error e => .error e
      | .ok (t, os) => .ok (t, o :: os)

variable {M : Machine S Op Out Err}

@[simp] theorem run_nil (s : S) : M.run s [] = .ok (s, []) := rfl

theorem run_cons_eq_ok {s t : S} {op : Op} {ops : List Op} {outs : List Out} :
    M.run s (op :: ops) = .ok (t, outs) ↔
      ∃ s' o os, M.exec s op = .ok (s', o) ∧ M.run s' ops = .ok (t, os) ∧ outs = o :: os := by
  constructor
  · intro h
    rcases he : M.exec s op with e | ⟨s', o⟩
    · simp [run, he] at h
    · rcases hr : M.run s' ops with e | ⟨u, os⟩
      · simp [run, he, hr] at h
      · obtain ⟨rfl, rfl⟩ : u = t ∧ o :: os = outs := by simpa [run, he, hr] using h
        exact ⟨s', o, os, rfl, hr, rfl⟩
  · rintro ⟨s', o, os, he, hr, rfl⟩
    simp [run, he, hr]

theorem run_cons_eq_error {s : S} {op : Op} {ops : List Op} {e : Err} :
    M.run s (op :: ops) = .error e ↔
      M.exec s op = .error e ∨ ∃ s' o, M.exec s op = .ok (s', o) ∧ M.run s' ops = .error e := by
  rcases he : M.exec s op with e' | ⟨s', o⟩
  · simp [run, he]
  · rcases hr : M.run s' ops with e' | ⟨u, os⟩ <;> simp [run, he, hr]

/-- The error of a run is the error of one operation. -/
theorem exists_exec_of_run_eq_error {e : Err} : ∀ {ops : List Op} {s : S},
    M.run s ops = .error e → ∃ before op after t outs, ops = before ++ op :: after ∧
      M.run s before = .ok (t, outs) ∧ M.exec t op = .error e
  | [], s, h => by cases h
  | op :: ops, s, h => by
    rcases run_cons_eq_error.1 h with hexec | ⟨s', o, hexec, hrest⟩
    · exact ⟨[], op, ops, s, [], rfl, rfl, hexec⟩
    · obtain ⟨before, op', after, t, outs, rfl, hbefore, hop⟩ := exists_exec_of_run_eq_error hrest
      exact ⟨op :: before, op', after, t, o :: outs, rfl,
        run_cons_eq_ok.2 ⟨s', o, outs, hexec, hbefore, rfl⟩, hop⟩

theorem run_append_eq_ok {s t : S} : ∀ {ops ops' : List Op} {outs : List Out},
    M.run s (ops ++ ops') = .ok (t, outs) ↔
      ∃ u os os', M.run s ops = .ok (u, os) ∧ M.run u ops' = .ok (t, os') ∧ outs = os ++ os'
  | [], ops', outs => by
    simp only [List.nil_append, run_nil, Except.ok.injEq, Prod.mk.injEq]
    constructor
    · exact fun h => ⟨s, [], outs, ⟨rfl, rfl⟩, h, rfl⟩
    · rintro ⟨u, os, os', ⟨rfl, rfl⟩, h, rfl⟩
      exact h
  | op :: ops, ops', outs => by
    rw [List.cons_append, run_cons_eq_ok]
    constructor
    · rintro ⟨s', o, os, hexec, hrun, rfl⟩
      obtain ⟨u, os₁, os₂, h₁, h₂, rfl⟩ := run_append_eq_ok.1 hrun
      exact ⟨u, o :: os₁, os₂, run_cons_eq_ok.2 ⟨s', o, os₁, hexec, h₁, rfl⟩, h₂, rfl⟩
    · rintro ⟨u, os₁, os₂, h₁, h₂, rfl⟩
      obtain ⟨s', o, os, hexec, hrun, rfl⟩ := run_cons_eq_ok.1 h₁
      exact ⟨s', o, os ++ os₂, hexec, run_append_eq_ok.2 ⟨u, os, os₂, hrun, h₂, rfl⟩, rfl⟩

theorem run_singleton {s t : S} {op : Op} {o : Out} (h : M.exec s op = .ok (t, o)) :
    M.run s [op] = .ok (t, [o]) :=
  run_cons_eq_ok.2 ⟨t, o, [], h, rfl, rfl⟩

/-- A completed run has one output per operation. -/
theorem length_of_run {s t : S} : ∀ {ops : List Op} {outs : List Out},
    M.run s ops = .ok (t, outs) → outs.length = ops.length
  | [], outs, h => by
    obtain ⟨-, rfl⟩ : s = t ∧ [] = outs := by simpa using h
    rfl
  | op :: ops, outs, h => by
    obtain ⟨s', o, os, -, hrun, rfl⟩ := run_cons_eq_ok.1 h
    simp [length_of_run hrun]

/-- An operation of a run with its output is executed where the operations before it lead. -/
theorem exec_of_mem_zip {op : Op} {o : Out} : ∀ {ops : List Op} {s t : S} {outs : List Out},
    M.run s ops = .ok (t, outs) → (op, o) ∈ ops.zip outs →
      ∃ before after u v os, ops = before ++ op :: after ∧ M.run s before = .ok (u, os) ∧
        M.exec u op = .ok (v, o)
  | [], s, t, outs, _, hmem => absurd hmem List.not_mem_nil
  | op' :: ops, s, t, outs, hrun, hmem => by
    obtain ⟨s', o', os, hexec, hrest, rfl⟩ := run_cons_eq_ok.1 hrun
    rcases List.mem_cons.1 hmem with heq | hmem
    · obtain ⟨rfl, rfl⟩ := Prod.mk.inj heq
      exact ⟨[], ops, s, s', [], rfl, rfl, hexec⟩
    · obtain ⟨before, after, u, v, os', rfl, hbefore, hop⟩ := exec_of_mem_zip hrest hmem
      exact ⟨op' :: before, after, u, v, o' :: os', rfl,
        run_cons_eq_ok.2 ⟨s', o', os', hexec, hbefore, rfl⟩, hop⟩

/-- A run, split at one of its outputs. -/
theorem run_split_output {o : Out} {after : List Out} : ∀ {before : List Out} {ops : List Op}
    {s t : S}, M.run s ops = .ok (t, before ++ o :: after) →
      ∃ ops₁ op ops₂ u v, ops = ops₁ ++ op :: ops₂ ∧ M.run s ops₁ = .ok (u, before) ∧
        M.exec u op = .ok (v, o) ∧ M.run v ops₂ = .ok (t, after)
  | before, [], s, t, hrun => by
    have hlen := length_of_run hrun
    simp at hlen
  | [], op :: ops, s, t, hrun => by
    obtain ⟨s', o', os, hexec, hrest, houts⟩ := run_cons_eq_ok.1 hrun
    obtain ⟨rfl, rfl⟩ := List.cons.inj houts
    exact ⟨[], op, ops, s, s', rfl, rfl, hexec, hrest⟩
  | o₁ :: before, op :: ops, s, t, hrun => by
    obtain ⟨s', o', os, hexec, hrest, houts⟩ := run_cons_eq_ok.1 hrun
    obtain ⟨rfl, rfl⟩ := List.cons.inj houts
    obtain ⟨ops₁, op', ops₂, u, v, rfl, hbefore, hop, hafter⟩ := run_split_output hrest
    exact ⟨op :: ops₁, op', ops₂, u, v, rfl,
      run_cons_eq_ok.2 ⟨s', _, _, hexec, hbefore, rfl⟩, hop, hafter⟩

/-- Every output of a run answers an operation. -/
theorem exists_mem_zip {ops : List Op} {outs : List Out} (hlen : outs.length = ops.length)
    {o : Out} (ho : o ∈ outs) : ∃ op, (op, o) ∈ ops.zip outs := by
  obtain ⟨i, hi, rfl⟩ := List.getElem_of_mem ho
  have hi' : i < ops.length := hlen ▸ hi
  have hzip : i < (ops.zip outs).length := by
    rw [List.length_zip]
    exact Nat.lt_min.2 ⟨hi', hi⟩
  exact ⟨ops[i], List.mem_iff_getElem.2 ⟨i, hzip, List.getElem_zip⟩⟩

/-- A place in a history that has grown by one is its end, or was there before. -/
theorem split_concat {α : Type*} {h before after : List α} {x y : α}
    (hsplit : h ++ [y] = before ++ x :: after) :
    after = [] ∧ before = h ∧ x = y ∨ ∃ after', after = after' ++ [y] ∧ h = before ++ x :: after' := by
  rcases List.eq_nil_or_concat after with rfl | ⟨after', z, rfl⟩
  · obtain ⟨rfl, heq⟩ := List.append_inj' hsplit rfl
    exact .inl ⟨rfl, rfl, (List.singleton_inj.1 heq).symm⟩
  · rw [List.concat_eq_append, ← List.cons_append, ← List.append_assoc] at hsplit
    obtain ⟨rfl, heq⟩ := List.append_inj' hsplit rfl
    obtain rfl := List.singleton_inj.1 heq
    exact .inr ⟨after', by rw [List.concat_eq_append], rfl⟩

/-! ## Invariants -/

/-- An invariant of the state and the history so far that every operation preserves
holds after a run, the run's operations and outputs appended to the history. -/
theorem run_history {P : List (Op × Out) → S → Prop}
    (step : ∀ h s op s' o, P h s → M.exec s op = .ok (s', o) → P (h ++ [(op, o)]) s') :
    ∀ {ops : List Op} {h : List (Op × Out)} {s t : S} {outs : List Out}, P h s →
      M.run s ops = .ok (t, outs) → P (h ++ ops.zip outs) t
  | [], h, s, t, outs, hP, hrun => by
    obtain ⟨rfl, rfl⟩ : s = t ∧ [] = outs := by simpa using hrun
    simpa using hP
  | op :: ops, h, s, t, outs, hP, hrun => by
    obtain ⟨s', o, os, hexec, hrun', rfl⟩ := run_cons_eq_ok.1 hrun
    have ih := run_history step (step h s op s' o hP hexec) hrun'
    simpa using ih

/-- An invariant of the state and the history that every operation allowed in its state
preserves holds after a run of operations allowed where they are executed. -/
theorem run_history_of {P : List (Op × Out) → S → Prop} {A : S → Op → Prop}
    (step : ∀ h s op s' o, P h s → A s op → M.exec s op = .ok (s', o) → P (h ++ [(op, o)]) s') :
    ∀ {ops : List Op} {h : List (Op × Out)} {s t : S} {outs : List Out}, P h s →
      M.run s ops = .ok (t, outs) →
      (∀ before op after u os, ops = before ++ op :: after → M.run s before = .ok (u, os) →
        A u op) → P (h ++ ops.zip outs) t
  | [], h, s, t, outs, hP, hrun, _ => by
    obtain ⟨rfl, rfl⟩ : s = t ∧ [] = outs := by simpa using hrun
    simpa using hP
  | op :: ops, h, s, t, outs, hP, hrun, hA => by
    obtain ⟨s', o, os, hexec, hrun', rfl⟩ := run_cons_eq_ok.1 hrun
    have ih := run_history_of step (step h s op s' o hP (hA [] op ops s [] rfl rfl) hexec) hrun'
      fun before op' after u us hsplit hbefore =>
        hA (op :: before) op' after u (o :: us) (by rw [hsplit]; rfl)
          (run_cons_eq_ok.2 ⟨s', o, us, hexec, hbefore, rfl⟩)
    simpa using ih

/-- If every operation preserves `P` and answers with `Q`, a run does. -/
theorem run_outputs {P : S → Prop} {Q : Out → Prop}
    (step : ∀ s op s' o, P s → M.exec s op = .ok (s', o) → P s' ∧ Q o) :
    ∀ {ops : List Op} {s t : S} {outs : List Out}, P s → M.run s ops = .ok (t, outs) →
      P t ∧ ∀ o ∈ outs, Q o
  | [], s, t, outs, hP, hrun => by
    obtain ⟨rfl, rfl⟩ : s = t ∧ [] = outs := by simpa using hrun
    exact ⟨hP, fun o ho => absurd ho List.not_mem_nil⟩
  | op :: ops, s, t, outs, hP, hrun => by
    obtain ⟨s', o, os, hexec, hrun', rfl⟩ := run_cons_eq_ok.1 hrun
    obtain ⟨hP', hQ⟩ := step s op s' o hP hexec
    obtain ⟨hPt, hQs⟩ := run_outputs step hP' hrun'
    exact ⟨hPt, List.forall_mem_cons.2 ⟨hQ, hQs⟩⟩

/-- An invariant of the state that every operation preserves holds after a run. -/
theorem run_invariant {P : S → Prop} (step : ∀ s op s' o, P s → M.exec s op = .ok (s', o) → P s')
    {ops : List Op} {s t : S} {outs : List Out} (hP : P s) (hrun : M.run s ops = .ok (t, outs)) :
    P t :=
  run_history (P := fun _ => P) (fun _ s op s' o => step s op s' o) (h := []) hP hrun

/-- An invariant that the operations satisfying `A` preserve holds after a run of them. -/
theorem run_invariant_of {P : S → Prop} {A : Op → Prop}
    (step : ∀ s op s' o, A op → P s → M.exec s op = .ok (s', o) → P s') :
    ∀ {ops : List Op} {s t : S} {outs : List Out}, (∀ op ∈ ops, A op) → P s →
      M.run s ops = .ok (t, outs) → P t
  | [], s, t, outs, _, hP, hrun => by
    obtain ⟨rfl, -⟩ : s = t ∧ [] = outs := by simpa using hrun
    exact hP
  | op :: ops, s, t, outs, hA, hP, hrun => by
    obtain ⟨s', o, os, hexec, hrun', rfl⟩ := run_cons_eq_ok.1 hrun
    exact run_invariant_of step (fun op h => hA op (by simp [h]))
      (step s op s' o (hA op (by simp)) hP hexec) hrun'

/-! ## States a run goes through -/

/-- A run of `ops` from `s₀` goes through `s`. -/
def Visits (M : Machine S Op Out Err) (s₀ : S) (ops : List Op) (s : S) : Prop :=
  ∃ before after outs, ops = before ++ after ∧ M.run s₀ before = .ok (s, outs)

theorem visits_of_run {s₀ s : S} {ops : List Op} {outs : List Out}
    (hrun : M.run s₀ ops = .ok (s, outs)) : M.Visits s₀ ops s :=
  ⟨ops, [], outs, (List.append_nil ops).symm, hrun⟩

theorem Visits.append {s₀ s : S} {ops : List Op} (h : M.Visits s₀ ops s) (ops' : List Op) :
    M.Visits s₀ (ops ++ ops') s := by
  obtain ⟨before, after, outs, rfl, hrun⟩ := h
  exact ⟨before, after ++ ops', outs, by rw [List.append_assoc], hrun⟩

/-- Of two states that a run goes through, it goes from one to the other. -/
theorem Visits.total {s₀ s t : S} {ops : List Op} (hs : M.Visits s₀ ops s)
    (ht : M.Visits s₀ ops t) : (∃ mid outs, M.run s mid = .ok (t, outs)) ∨
      ∃ mid outs, M.run t mid = .ok (s, outs) := by
  obtain ⟨before, after, outs, rfl, hrun⟩ := hs
  obtain ⟨before', after', outs', heq, hrun'⟩ := ht
  rcases List.append_eq_append_iff.1 heq with ⟨mid, rfl, -⟩ | ⟨mid, rfl, -⟩
  · obtain ⟨u, _, os, hbefore, hmid, -⟩ := run_append_eq_ok.1 hrun'
    obtain ⟨rfl, -⟩ : s = u ∧ _ := by simpa using hrun.symm.trans hbefore
    exact .inl ⟨mid, os, hmid⟩
  · obtain ⟨u, _, os, hbefore, hmid, -⟩ := run_append_eq_ok.1 hrun
    obtain ⟨rfl, -⟩ : t = u ∧ _ := by simpa using hrun'.symm.trans hbefore
    exact .inr ⟨mid, os, hmid⟩

/-- An invariant of the state and the operations so far, preserved by every operation where
a run has led, holds after a run. -/
theorem run_induction {P : List Op → S → Prop} {s₀ : S} (nil : P [] s₀)
    (step : ∀ ops s outs op s' o, M.run s₀ ops = .ok (s, outs) → P ops s →
      M.exec s op = .ok (s', o) → P (ops ++ [op]) s') {ops : List Op} {s : S} {outs : List Out}
    (hrun : M.run s₀ ops = .ok (s, outs)) : P ops s := by
  induction ops using List.reverseRecOn generalizing s outs with
  | nil =>
    obtain ⟨rfl, -⟩ : s₀ = s ∧ [] = outs := by simpa using hrun
    exact nil
  | append_singleton ops op ih =>
    obtain ⟨u, os, os', hbefore, hlast, -⟩ := run_append_eq_ok.1 hrun
    obtain ⟨v, o, os'', hexec, hnil, -⟩ := run_cons_eq_ok.1 hlast
    obtain ⟨rfl, -⟩ : v = s ∧ [] = os'' := by simpa using hnil
    exact step ops u os op v o hbefore (ih hbefore) hexec

/-! ## A machine on top of another -/

/-- If every operation of `M` is some calls to the machine beneath it, told by the operation
and its output, a run of `M` is a run of their calls. -/
theorem run_calls {Op' Err' : Type*} {N : Machine T Op' Out' Err'} {f : S → T}
    {c : Op × Out → List Op'} {Q : Op × Out → List Out' → Prop}
    (step : ∀ s op s' o, M.exec s op = .ok (s', o) →
      ∃ os, N.run (f s) (c (op, o)) = .ok (f s', os) ∧ Q (op, o) os) :
    ∀ {ops : List Op} {s t : S} {outs : List Out}, M.run s ops = .ok (t, outs) →
      ∃ oss, N.run (f s) ((ops.zip outs).flatMap c) = .ok (f t, oss.flatten) ∧
        List.Forall₂ Q (ops.zip outs) oss
  | [], s, t, outs, hrun => by
    obtain ⟨rfl, rfl⟩ : s = t ∧ [] = outs := by simpa using hrun
    exact ⟨[], rfl, .nil⟩
  | op :: ops, s, t, outs, hrun => by
    obtain ⟨s', o, os, hexec, hrest, rfl⟩ := run_cons_eq_ok.1 hrun
    obtain ⟨os₁, hfirst, hQ⟩ := step s op s' o hexec
    obtain ⟨oss, hrest, hQs⟩ := run_calls step hrest
    exact ⟨os₁ :: oss, run_append_eq_ok.2 ⟨_, _, _, hfirst, hrest, rfl⟩, .cons hQ hQs⟩

/-! ## Two machines that answer alike -/

/-- Two results agree : both are the same error, or both succeed in states related by `R`
with outputs related by `Q`. -/
def ResultRel (R : S → T → Prop) (Q : Out → Out' → Prop) :
    Except Err (S × Out) → Except Err (T × Out') → Prop
  | .ok (s, o), .ok (t, o') => R s t ∧ Q o o'
  | .error e, .error e' => e = e'
  | _, _ => False

theorem resultRel_error {R : S → T → Prop} {Q : Out → Out' → Prop} {x : Except Err (S × Out)}
    {y : Except Err (T × Out')} {e : Err} (hx : x = .error e) (hy : y = .error e) :
    ResultRel R Q x y := by
  rw [hx, hy]
  rfl

theorem resultRel_ok {R : S → T → Prop} {Q : Out → Out' → Prop} {x : Except Err (S × Out)}
    {y : Except Err (T × Out')} {s : S} {t : T} {o : Out} {o' : Out'} (hx : x = .ok (s, o))
    (hy : y = .ok (t, o')) (hR : R s t) (hQ : Q o o') : ResultRel R Q x y := by
  rw [hx, hy]
  exact ⟨hR, hQ⟩

theorem resultRel_ok_left {R : S → T → Prop} {Q : Out → Out' → Prop} {s : S} {o : Out}
    {r : Except Err (T × Out')} (h : ResultRel R Q (.ok (s, o)) r) :
    ∃ t o', r = .ok (t, o') ∧ R s t ∧ Q o o' := by
  rcases r with e | ⟨t, o'⟩
  · exact h.elim
  · exact ⟨t, o', rfl, h⟩

theorem resultRel_ok_right {R : S → T → Prop} {Q : Out → Out' → Prop} {t : T} {o' : Out'}
    {r : Except Err (S × Out)} (h : ResultRel R Q r (.ok (t, o'))) :
    ∃ s o, r = .ok (s, o) ∧ R s t ∧ Q o o' := by
  rcases r with e | ⟨s, o⟩
  · exact h.elim
  · exact ⟨s, o, rfl, h⟩

/-- Agreeing results go on to agree where each goes on from what it has. -/
theorem ResultRel.bind {S' T' Out₁ Out₂ : Type*} {R : S → T → Prop} {Q : Out → Out' → Prop}
    {R' : S' → T' → Prop} {Q' : Out₁ → Out₂ → Prop} {x : Except Err (S × Out)}
    {y : Except Err (T × Out')} {f : S × Out → Except Err (S' × Out₁)}
    {g : T × Out' → Except Err (T' × Out₂)} (h : ResultRel R Q x y)
    (hfg : ∀ s o t o', R s t → Q o o' → ResultRel R' Q' (f (s, o)) (g (t, o'))) :
    ResultRel R' Q' (x.bind f) (y.bind g) := by
  rcases x with e | ⟨s, o⟩ <;> rcases y with e' | ⟨t, o'⟩
  · exact h
  · exact h.elim
  · exact h.elim
  · exact hfg s o t o' h.1 h.2

/-- Two results that agree with a third agree. -/
theorem resultRel_of_common {U Out₃ : Type*} {R : S → U → Prop} {R' : T → U → Prop}
    {Q : Out → Out₃ → Prop} {Q' : Out' → Out₃ → Prop} {x : Except Err (S × Out)}
    {y : Except Err (T × Out')} {z : Except Err (U × Out₃)} (h : ResultRel R Q x z)
    (h' : ResultRel R' Q' y z) :
    ResultRel (fun s t => ∃ u, R s u ∧ R' t u) (fun o o' => ∃ p, Q o p ∧ Q' o' p) x y := by
  rcases z with e | ⟨u, p⟩
  · rcases x with e₁ | x <;> rcases y with e₂ | y
    · exact h.trans h'.symm
    · exact h'.elim
    · exact h.elim
    · exact h.elim
  · obtain ⟨s, o, rfl, hR, hQ⟩ := resultRel_ok_right h
    obtain ⟨t, o', rfl, hR', hQ'⟩ := resultRel_ok_right h'
    exact ⟨⟨u, hR, hR'⟩, p, hQ, hQ'⟩

theorem ResultRel.imp {R R' : S → T → Prop} {Q Q' : Out → Out' → Prop}
    {x : Except Err (S × Out)} {y : Except Err (T × Out')} (h : ResultRel R Q x y)
    (hR : ∀ s t, R s t → R' s t) (hQ : ∀ o o', Q o o' → Q' o o') : ResultRel R' Q' x y := by
  rcases x with e | ⟨s, o⟩ <;> rcases y with e' | ⟨t, o'⟩
  · exact h
  · exact h.elim
  · exact h.elim
  · exact ⟨hR s t h.1, hQ o o' h.2⟩

/-- If related states answer every operation alike, related states run alike. The relation
may depend on the operations still to come. -/
theorem run_rel {N : Machine T Op Out' Err} {R : List Op → S → T → Prop} {Q : Out → Out' → Prop}
    (step : ∀ s t op ops, R (op :: ops) s t → ResultRel (R ops) Q (M.exec s op) (N.exec t op)) :
    ∀ {ops : List Op} {s : S} {t : T}, R ops s t →
      ResultRel (R []) (List.Forall₂ Q) (M.run s ops) (N.run t ops)
  | [], _, _, hR => ⟨hR, .nil⟩
  | op :: ops, s, t, hR => by
    have hop := step s t op ops hR
    rw [run, run]
    rcases hs : M.exec s op with e | ⟨s', o⟩ <;> rcases ht : N.exec t op with e' | ⟨t', o'⟩ <;>
      rw [hs, ht] at hop
    · exact hop
    · exact hop.elim
    · exact hop.elim
    · have ih : ResultRel (R []) (List.Forall₂ Q) (M.run s' ops) (N.run t' ops) :=
        run_rel step hop.1
      rcases hs' : M.run s' ops with e | ⟨u, os⟩ <;>
        rcases ht' : N.run t' ops with e' | ⟨v, os'⟩ <;> rw [hs', ht'] at ih
      · simpa [hs', ht'] using ih
      · exact ih.elim
      · exact ih.elim
      · simp only [hs', ht']
        exact ⟨ih.1, .cons hop.2 ih.2⟩

/-! ## A state that drifts -/

/-- A machine that does along a run what another does, seen through `f`, runs alike. -/
theorem run_map {N : Machine T Op Out Err} {f : S → T} : ∀ {ops : List Op} {s : S},
    (∀ before op after t outs, ops = before ++ op :: after → M.run s before = .ok (t, outs) →
      N.exec (f t) op = (M.exec t op).map fun x => (f x.1, x.2)) →
    N.run (f s) ops = (M.run s ops).map fun x => (f x.1, x.2)
  | [], _, _ => rfl
  | op :: ops, s, h => by
    have hop := h [] op ops s [] rfl (run_nil s)
    rcases hexec : M.exec s op with e | ⟨s', o⟩ <;> rw [hexec] at hop
    · rw [run_cons_eq_error.2 (.inl hop), run_cons_eq_error.2 (.inl hexec)]
      rfl
    · have hrest : N.run (f s') ops = (M.run s' ops).map fun x => (f x.1, x.2) := by
        refine run_map fun before op' after t outs hsplit hbefore => ?_
        refine h (op :: before) op' after t (o :: outs) (hsplit ▸ rfl) ?_
        exact run_cons_eq_ok.2 ⟨s', o, outs, hexec, hbefore, rfl⟩
      rcases hrun : M.run s' ops with e | ⟨t, os⟩ <;> rw [hrun] at hrest
      · rw [run_cons_eq_error.2 (.inr ⟨f s', o, hop, hrest⟩),
          run_cons_eq_error.2 (.inr ⟨s', o, hexec, hrun⟩)]
        rfl
      · rw [run_cons_eq_ok.2 ⟨f s', o, os, hop, hrest, rfl⟩,
          run_cons_eq_ok.2 ⟨s', o, os, hexec, hrun, rfl⟩]
        rfl

/-- A run whose state may turn into any that `R` relates to it, before every operation and at
the end. -/
inductive Drifts (M : Machine S Op Out Err) (R : S → S → Prop) :
    S → List Op → Except Err (S × List Out) → Prop
  | nil {s t : S} (h : R s t) : Drifts M R s [] (.ok (t, []))
  | error {s t : S} {op : Op} {ops : List Op} {e : Err} (h : R s t)
      (hexec : M.exec t op = .error e) : Drifts M R s (op :: ops) (.error e)
  | cons {s t u : S} {op : Op} {ops : List Op} {o : Out} {r : Except Err (S × List Out)}
      (h : R s t) (hexec : M.exec t op = .ok (u, o)) (hrest : Drifts M R u ops r) :
      Drifts M R s (op :: ops) (r.map fun x => (x.1, o :: x.2))

/-- A state may stay where it is. -/
theorem drifts_run {R : S → S → Prop} (refl : ∀ s, R s s) : ∀ (ops : List Op) (s : S),
    M.Drifts R s ops (M.run s ops)
  | [], s => .nil (refl s)
  | op :: ops, s => by
    rcases hexec : M.exec s op with e | ⟨t, o⟩
    · rw [run_cons_eq_error.2 (.inl hexec)]
      exact .error (refl s) hexec
    · have h := Drifts.cons (refl s) hexec (drifts_run refl ops t)
      rcases hrun : M.run t ops with e | ⟨u, os⟩ <;> rw [hrun] at h
      · rw [run_cons_eq_error.2 (.inr ⟨t, o, hexec, hrun⟩)]
        exact h
      · rw [run_cons_eq_ok.2 ⟨t, o, os, hexec, hrun, rfl⟩]
        exact h

/-- A run may drift once it has come somewhere. -/
theorem Drifts.of_run {R : S → S → Prop} (refl : ∀ s, R s s)
    (trans : ∀ s t u, R s t → R t u → R s u) {ops' : List Op} {u : S}
    {r : Except Err (S × List Out)} (h : M.Drifts R u ops' r) :
    ∀ {ops : List Op} {s t : S} {outs : List Out}, M.run s ops = .ok (t, outs) → R t u →
      M.Drifts R s (ops ++ ops') (r.map fun x => (x.1, outs ++ x.2))
  | [], s, t, outs, hrun, hR => by
    obtain ⟨rfl, rfl⟩ : s = t ∧ [] = outs := by simpa using hrun
    have hr : r.map (fun x => (x.1, [] ++ x.2)) = r := by rcases r with e | x <;> rfl
    rw [hr]
    cases h with
    | nil h => exact .nil (trans _ _ _ hR h)
    | error h hexec => exact .error (trans _ _ _ hR h) hexec
    | cons h hexec hrest => exact .cons (trans _ _ _ hR h) hexec hrest
  | op :: ops, s, t, outs, hrun, hR => by
    obtain ⟨s', o, os, hexec, hrest, rfl⟩ := run_cons_eq_ok.1 hrun
    have ih := of_run refl trans h hrest hR
    have hr : r.map (fun x => (x.1, o :: os ++ x.2)) =
        (r.map fun x => (x.1, os ++ x.2)).map fun x => (x.1, o :: x.2) := by
      rcases r with e | x <;> rfl
    rw [hr]
    exact .cons (refl s) hexec ih

/-- If related states answer every operation alike, a state may drift along them and the run
ends as it would have. -/
theorem run_of_drifts {R : S → S → Prop} (trans : ∀ s t u, R s t → R t u → R s u)
    (step : ∀ s t op, R s t → ResultRel R Eq (M.exec s op) (M.exec t op)) {s : S}
    {ops : List Op} {r : Except Err (S × List Out)} (h : M.Drifts R s ops r) :
    ∀ {s₀ : S}, R s₀ s → ResultRel R Eq (M.run s₀ ops) r := by
  induction h with
  | nil h => exact fun hs => ⟨trans _ _ _ hs h, rfl⟩
  | @error s t op ops e h hexec =>
    intro s₀ hs
    have hop := step s₀ t op (trans _ _ _ hs h)
    rw [hexec] at hop
    rcases h₀ : M.exec s₀ op with e₀ | x
    · rw [h₀] at hop
      obtain rfl : e₀ = e := hop
      exact resultRel_error (run_cons_eq_error.2 (.inl h₀)) rfl
    · rw [h₀] at hop
      exact hop.elim
  | @cons s t u op ops o r h hexec _ ih =>
    intro s₀ hs
    have hop := step s₀ t op (trans _ _ _ hs h)
    rw [hexec] at hop
    obtain ⟨u₀, o₀, h₀, hu, heq⟩ := resultRel_ok_right hop
    obtain rfl : o₀ = o := heq
    have hrest := ih hu
    rcases hr : M.run u₀ ops with e | ⟨v, os⟩ <;> rcases r with e' | ⟨w, os'⟩ <;>
      rw [hr] at hrest
    · exact resultRel_error (run_cons_eq_error.2 (.inr ⟨u₀, o₀, h₀, hr⟩)) (congrArg _ hrest.symm)
    · exact hrest.elim
    · exact hrest.elim
    · obtain ⟨hvw, rfl⟩ := hrest
      exact resultRel_ok (run_cons_eq_ok.2 ⟨u₀, o₀, os, h₀, hr, rfl⟩) rfl hvw rfl

/-! ## Two runs that differ in secret operations -/

/-- The operations with their outputs, secret ones dropped. -/
def publicPart (secret : Op → Bool) (ops : List Op) (outs : List Out) : List (Op × Out) :=
  (ops.zip outs).filter fun x => !secret x.1

@[simp] theorem publicPart_cons (secret : Op → Bool) (op : Op) (ops : List Op) (o : Out)
    (outs : List Out) : publicPart secret (op :: ops) (o :: outs) =
      if secret op then publicPart secret ops outs
      else (op, o) :: publicPart secret ops outs := by
  cases h : secret op <;> simp [publicPart, h]

theorem publicPart_map (secret : Op → Bool) (ops : List Op) (f : Out → Out') (outs : List Out) :
    publicPart secret ops (outs.map f) =
      (publicPart secret ops outs).map fun x => (x.1, f x.2) := by
  rw [publicPart, publicPart, List.zip_map_right, List.filter_map]
  rfl

/-- Unwinding. Let a secret operation preserve `R` on the side that executes it, and let a
public operation that both sides execute preserve `R` and yield outputs related by `Q`.
Two completed runs with the same public operations end in related states, and their
public histories agree up to `Q`. -/
theorem run_unwind {secret : Op → Bool} {R : S → S → Prop} {Q : Op → Out → Out → Prop}
    (left : ∀ s t op s' o, R s t → secret op → M.exec s op = .ok (s', o) → R s' t)
    (right : ∀ s t op t' o, R s t → secret op → M.exec t op = .ok (t', o) → R s t')
    (both : ∀ s t op s' o t' o', R s t → secret op = false → M.exec s op = .ok (s', o) →
      M.exec t op = .ok (t', o') → R s' t' ∧ Q op o o') :
    ∀ {ops ops' : List Op} {s t u v : S} {outs outs' : List Out},
      ops.filter (fun op => !secret op) = ops'.filter (fun op => !secret op) → R s t →
      M.run s ops = .ok (u, outs) → M.run t ops' = .ok (v, outs') →
      R u v ∧ List.Forall₂ (fun x y => x.1 = y.1 ∧ Q x.1 x.2 y.2)
        (publicPart secret ops outs) (publicPart secret ops' outs')
  | [], [], s, t, u, v, outs, outs', _, hR, hs, ht => by
    obtain ⟨rfl, rfl⟩ : s = u ∧ [] = outs := by simpa using hs
    obtain ⟨rfl, rfl⟩ : t = v ∧ [] = outs' := by simpa using ht
    exact ⟨hR, by simp [publicPart]⟩
  | op :: ops, ops', s, t, u, v, outs, outs', hpub, hR, hs, ht => by
    obtain ⟨s', o, os, hexec, hrun, rfl⟩ := run_cons_eq_ok.1 hs
    cases hsec : secret op with
    | true =>
      have hpub' : ops.filter (fun op => !secret op) = ops'.filter (fun op => !secret op) := by
        simpa [hsec] using hpub
      have ih := run_unwind left right both hpub' (left s t op s' o hR hsec hexec) hrun ht
      simpa [hsec] using ih
    | false =>
      -- The other run's next public operation is `op` : skip its secret prefix.
      match ops' with
      | [] => simp [hsec] at hpub
      | op' :: ops' =>
        obtain ⟨t', o', os', hexec', hrun', rfl⟩ := run_cons_eq_ok.1 ht
        cases hsec' : secret op' with
        | true =>
          have hpub' : (op :: ops).filter (fun op => !secret op) =
              ops'.filter (fun op => !secret op) := by
            simpa [hsec'] using hpub
          have ih := run_unwind left right both hpub' (right s t op' t' o' hR hsec' hexec') hs hrun'
          simpa [hsec, hsec'] using ih
        | false =>
          simp only [List.filter_cons, hsec, hsec', Bool.not_false, if_true,
            List.cons.injEq] at hpub
          obtain ⟨rfl, hpub⟩ := hpub
          obtain ⟨hR', hQ⟩ := both s t op s' o t' o' hR hsec hexec hexec'
          obtain ⟨hfin, hall⟩ := run_unwind left right both hpub hR' hrun hrun'
          refine ⟨hfin, ?_⟩
          simp only [publicPart_cons, hsec, Bool.false_eq_true, if_false]
          exact .cons ⟨rfl, hQ⟩ hall
  | [], op' :: ops', s, t, u, v, outs, outs', hpub, hR, hs, ht => by
    obtain ⟨t', o', os', hexec', hrun', rfl⟩ := run_cons_eq_ok.1 ht
    cases hsec' : secret op' with
    | true =>
      have hpub' : [].filter (fun op => !secret op) = ops'.filter (fun op => !secret op) := by
        simpa [hsec'] using hpub
      have ih := run_unwind left right both hpub' (right s t op' t' o' hR hsec' hexec') hs hrun'
      simpa [hsec'] using ih
    | false => simp [hsec'] at hpub
  termination_by ops ops' => ops.length + ops'.length

theorem publicPart_append {secret : Op → Bool} {ops ops' : List Op} {outs outs' : List Out}
    (hlen : outs.length = ops.length) : publicPart secret (ops ++ ops') (outs ++ outs') =
      publicPart secret ops outs ++ publicPart secret ops' outs' := by
  rw [publicPart, List.zip_append hlen.symm, List.filter_append]
  rfl

/-- The first run may end before the second has come to the end of the public operations : it
is compared with the second up to where it has performed the same ones. -/
theorem run_unwind_prefix {secret : Op → Bool} {R : S → S → Prop} {Q : Op → Out → Out → Prop}
    (left : ∀ s t op s' o, R s t → secret op → M.exec s op = .ok (s', o) → R s' t)
    (right : ∀ s t op t' o, R s t → secret op → M.exec t op = .ok (t', o) → R s t')
    (both : ∀ s t op s' o t' o', R s t → secret op = false → M.exec s op = .ok (s', o) →
      M.exec t op = .ok (t', o') → R s' t' ∧ Q op o o')
    {ops ops' : List Op} {s t u v : S} {outs outs' : List Out}
    (hpub : ops.filter (fun op => !secret op) <+: ops'.filter fun op => !secret op) (hR : R s t)
    (hs : M.run s ops = .ok (u, outs)) (ht : M.run t ops' = .ok (v, outs')) :
    ∃ w before after os os', ops' = before ++ after ∧ M.run t before = .ok (w, os) ∧
      M.run w after = .ok (v, os') ∧ R u w ∧
      List.Forall₂ (fun x y => x.1 = y.1 ∧ Q x.1 x.2 y.2)
        (publicPart secret ops outs) (publicPart secret before os) ∧
      publicPart secret before os <+: publicPart secret ops' outs' := by
  obtain ⟨rest, hrest⟩ := hpub
  obtain ⟨before, after, rfl, hbefore, -⟩ := List.filter_eq_append_iff.1 hrest.symm
  obtain ⟨w, os, os', hw, hafter, rfl⟩ := run_append_eq_ok.1 ht
  obtain ⟨hRw, hviews⟩ := run_unwind left right both hbefore.symm hR hs hw
  refine ⟨w, before, after, os, os', rfl, hw, hafter, hRw, hviews, ?_⟩
  rw [publicPart_append (length_of_run hw)]
  exact List.prefix_append _ _

end Machine
