import Mathlib.Algebra.Order.Monoid.Defs
import Mathlib.Data.List.Basic
import Mathlib.Tactic.Abel

/-!
# Periodic work that gives up time it has lost

A worker does something at a fixed interval. It keeps an instant at which its next turn is due.
After a turn it moves the instant on by the interval, or to the present if that is later, and
sleeps until then (`Beat`, `Kept`). Whatever its turns take and however long it sleeps, between
two turns with `m` others between them there are at least `m` intervals (`Kept.spaced`) : it
never makes up for lost turns in a burst. If a turn and the oversleeping before it fit an
interval, nothing is ever lost and the worker does not drift at all (`Kept.punctual`).
-/

/-- A turn : when it started, when it was done, when the next one was due, and when the worker
woke up for it. -/
structure Beat (α : Type*) where
  start : α
  done : α
  due : α
  woke : α
deriving DecidableEq

namespace Beat

section Kept

variable {α : Type*} [AddCommMonoid α] [LinearOrder α]

/-- The turn starts when the worker wakes up, and keeps the schedule. -/
structure Keeps (interval due woke : α) (t : Beat α) : Prop where
  start : t.start = woke
  done : t.start ≤ t.done
  due : t.due = max (due + interval) t.done
  woke : t.due ≤ t.woke

/-- The turns of a worker that is awake at `woke` for a turn due at `due`. -/
def Kept (interval : α) : α → α → List (Beat α) → Prop
  | _, _, [] => True
  | due, woke, t :: ts => t.Keeps interval due woke ∧ Kept interval t.due t.woke ts

/-- When the turn after the last one is due. -/
def lastDue (due : α) (ts : List (Beat α)) : α := ts.foldl (fun _ t => t.due) due

/-- When the worker woke up for it. -/
def lastWoke (woke : α) (ts : List (Beat α)) : α := ts.foldl (fun _ t => t.woke) woke

omit [AddCommMonoid α] [LinearOrder α] in
@[simp] theorem lastDue_concat (due : α) (ts : List (Beat α)) (t : Beat α) :
    lastDue due (ts ++ [t]) = t.due := List.foldl_concat _ _ _ _

omit [AddCommMonoid α] [LinearOrder α] in
@[simp] theorem lastWoke_concat (woke : α) (ts : List (Beat α)) (t : Beat α) :
    lastWoke woke (ts ++ [t]) = t.woke := List.foldl_concat _ _ _ _

variable {interval : α}

theorem kept_append : ∀ {ts ts' : List (Beat α)} {due woke : α},
    Kept interval due woke (ts ++ ts') ↔
      Kept interval due woke ts ∧ Kept interval (lastDue due ts) (lastWoke woke ts) ts'
  | [], _, _, _ => ⟨fun h => ⟨trivial, h⟩, And.right⟩
  | t :: ts, ts', due, woke => by
    rw [List.cons_append, Kept, Kept, and_assoc, kept_append]
    rfl

theorem kept_concat {ts : List (Beat α)} {due woke : α} {t : Beat α} :
    Kept interval due woke (ts ++ [t]) ↔
      Kept interval due woke ts ∧ t.Keeps interval (lastDue due ts) (lastWoke woke ts) := by
  rw [kept_append, Kept, Kept, and_true]

end Kept

section Spacing

variable {α : Type*} [AddCommMonoid α] [LinearOrder α] [IsOrderedAddMonoid α] {interval : α}

/-- After `ts` the worker is due no sooner than `ts` intervals later. -/
theorem Kept.le_lastDue : ∀ {ts : List (Beat α)} {due woke : α}, Kept interval due woke ts →
    due + ts.length • interval ≤ lastDue due ts
  | [], due, _, _ => by
    rw [List.length_nil, zero_nsmul, add_zero]
    exact le_rfl
  | t :: ts, due, woke, ⟨hkeeps, hrest⟩ => by
    have hdue : due + interval ≤ t.due := hkeeps.due ▸ le_max_left _ _
    calc due + (t :: ts).length • interval
        = (due + interval) + ts.length • interval := by
          rw [List.length_cons, succ_nsmul', add_assoc]
      _ ≤ t.due + ts.length • interval := add_le_add_left hdue _
      _ ≤ lastDue t.due ts := hrest.le_lastDue

omit [IsOrderedAddMonoid α] in
/-- The worker is not awake before it is due. -/
theorem Kept.lastDue_le : ∀ {ts : List (Beat α)} {due woke : α}, Kept interval due woke ts →
    due ≤ woke → lastDue due ts ≤ lastWoke woke ts
  | [], _, _, _, hle => hle
  | _ :: _, _, _, ⟨hkeeps, hrest⟩, _ => hrest.lastDue_le hkeeps.woke

/-- Between two turns there are as many intervals as there are other turns. -/
theorem Kept.spaced {due woke : α} {before mid after : List (Beat α)} {t t' : Beat α}
    (h : Kept interval due woke (before ++ t :: (mid ++ t' :: after))) :
    t.done + mid.length • interval ≤ t'.start := by
  obtain ⟨-, hkeeps, hrest⟩ := kept_append.1 h
  obtain ⟨hmid, hkeeps', -⟩ := kept_append.1 hrest
  calc t.done + mid.length • interval
      ≤ t.due + mid.length • interval :=
        add_le_add_left (hkeeps.due ▸ le_max_right _ _) _
    _ ≤ lastDue t.due mid := hmid.le_lastDue
    _ ≤ lastWoke t.woke mid := hmid.lastDue_le hkeeps.woke
    _ = t'.start := hkeeps'.start.symm

/-- Turns that take no more than `work`, after sleeps that take no more than `slack` too long,
are due at every interval. -/
theorem Kept.punctual {work slack : α} (hfits : slack + work ≤ interval) :
    ∀ {ts : List (Beat α)} {due woke : α}, Kept interval due woke ts → woke ≤ due + slack →
      (∀ t ∈ ts, t.done ≤ t.start + work ∧ t.woke ≤ t.due + slack) →
      lastDue due ts = due + ts.length • interval ∧ lastWoke woke ts ≤ lastDue due ts + slack
  | [], due, woke, _, hwoke, _ => by
    rw [List.length_nil, zero_nsmul, add_zero]
    exact ⟨rfl, hwoke⟩
  | t :: ts, due, woke, ⟨hkeeps, hrest⟩, hwoke, hprompt => by
    obtain ⟨⟨hdone, hslept⟩, hprompt⟩ := List.forall_mem_cons.1 hprompt
    have hdue : t.due = due + interval := by
      refine hkeeps.due.trans (max_eq_left ?_)
      calc t.done ≤ woke + work := hkeeps.start ▸ hdone
        _ ≤ due + slack + work := add_le_add_left hwoke _
        _ = due + (slack + work) := add_assoc _ _ _
        _ ≤ due + interval := add_le_add_right hfits _
    obtain ⟨hlast, hawake⟩ := hrest.punctual hfits hslept hprompt
    refine ⟨?_, hawake⟩
    change lastDue t.due ts = _
    rw [hlast, hdue, List.length_cons, succ_nsmul', add_assoc]

end Spacing

end Beat
