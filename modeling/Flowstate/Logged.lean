import Mathlib.Tactic.Common

/-!
# Computations with a log

A computation writes items to a log and ends in a value or in an error, which keeps what was
written before it. Ways to reason about one : `Logged.SimulatedBy` relates the run of one
computation to that of another, logs included, until the second one ends in an error the
first has a `trap` for. `Logged.Approximates` says that a computation with a bound, unless it
was cut off there, is the one without. `Logged.Spends` bounds the weight of a log by what was
there to spend, and `Logged.Gains` the size of a value by the weight of the log.
-/

/-- A computation : its log, and the value or the error it ended in. -/
structure Logged (τ ε α : Type) where
  log : List τ
  result : Except ε α

namespace Logged

variable {τ σ ε δ α β γ κ : Type}

instance : Monad (Logged τ ε) where
  pure a := ⟨[], .ok a⟩
  bind x f :=
    match x.result with
    | .ok a => ⟨x.log ++ (f a).log, (f a).result⟩
    | .error e => ⟨x.log, .error e⟩

def tell (item : τ) : Logged τ ε Unit := ⟨[item], .ok ()⟩

def fail (e : ε) : Logged τ ε α := ⟨[], .error e⟩

/-- The value of `o`, or the error `e`. -/
def ofOption (e : ε) (o : Option α) : Logged τ ε α := ⟨[], o.elim (.error e) .ok⟩

/-- The value, without the log. -/
def value? (x : Logged τ ε α) : Option α := x.result.toOption

@[simp] theorem log_pure (a : α) : (pure a : Logged τ ε α).log = [] := rfl

theorem bind_of_ok {x : Logged τ ε α} {a : α} (h : x.result = .ok a) (f : α → Logged τ ε β) :
    x >>= f = ⟨x.log ++ (f a).log, (f a).result⟩ := by
  change (match x.result with
    | .ok a => Logged.mk (x.log ++ (f a).log) (f a).result
    | .error e => ⟨x.log, .error e⟩) = _
  rw [h]

theorem bind_of_error {x : Logged τ ε α} {e : ε} (h : x.result = .error e)
    (f : α → Logged τ ε β) : x >>= f = ⟨x.log, .error e⟩ := by
  change (match x.result with
    | .ok a => Logged.mk (x.log ++ (f a).log) (f a).result
    | .error e => ⟨x.log, .error e⟩) = _
  rw [h]

@[simp] theorem pure_bind (a : α) (f : α → Logged τ ε β) : pure a >>= f = f a := rfl

@[simp] theorem tell_bind (item : τ) (f : Unit → Logged τ ε α) :
    tell item >>= f = ⟨item :: (f ()).log, (f ()).result⟩ := rfl

@[simp] theorem fail_bind (e : ε) (f : α → Logged τ ε β) : fail e >>= f = fail e := rfl

@[simp] theorem value?_pure (a : α) : (pure a : Logged τ ε α).value? = some a := rfl

@[simp] theorem value?_tell (item : τ) : (tell item : Logged τ ε Unit).value? = some () := rfl

@[simp] theorem value?_fail (e : ε) : (fail e : Logged τ ε α).value? = none := rfl

@[simp] theorem value?_ofOption (e : ε) (o : Option α) :
    (ofOption e o : Logged τ ε α).value? = o := by
  cases o <;> rfl

@[simp] theorem value?_bind (x : Logged τ ε α) (f : α → Logged τ ε β) :
    (x >>= f).value? = x.value?.bind fun a => (f a).value? := by
  unfold value?
  cases h : x.result with
  | ok a => rw [bind_of_ok h]; rfl
  | error e => rw [bind_of_error h]; rfl

/-! ## Simulation -/

/-- How two kinds of computations are compared : what their logs have in common, which errors
correspond, the errors of the second that the first has a log item for, and those of the
first that stand for a run that was cut off. -/
structure Comparison (τ σ ε δ : Type) where
  alike : List τ → List σ → Prop
  errors : ε → δ → Prop
  trap : δ → τ → Prop
  cutOff : ε → Prop
  alike_nil : alike [] []
  alike_append : ∀ {l₁ l₂ m₁ m₂}, alike l₁ m₁ → alike l₂ m₂ → alike (l₁ ++ l₂) (m₁ ++ m₂)

variable {C : Comparison τ σ ε δ} {R : α → β → Prop} {S : γ → κ → Prop}

/-- `x` does what `y` does, up to an error of `y` that `x` has logged a trap for, unless it
was cut off. -/
inductive SimulatedBy (C : Comparison τ σ ε δ) (R : α → β → Prop) (x : Logged τ ε α)
    (y : Logged σ δ β) : Prop
  | ok {a : α} {b : β} (hx : x.result = .ok a) (hy : y.result = .ok b) (hR : R a b)
      (hlog : C.alike x.log y.log)
  | error {e : ε} {d : δ} (hx : x.result = .error e) (hy : y.result = .error d)
      (he : C.errors e d) (hlog : C.alike x.log y.log)
  | trap {d : δ} {item : τ} (hy : y.result = .error d) (hitem : item ∈ x.log)
      (ht : C.trap d item)
  | cutOff {e : ε} (hx : x.result = .error e) (he : C.cutOff e)

namespace SimulatedBy

theorem pure {a : α} {b : β} (h : R a b) :
    SimulatedBy C R (pure a : Logged τ ε α) (pure b : Logged σ δ β) :=
  ok rfl rfl h C.alike_nil

theorem tell {item : τ} {item' : σ} (h : C.alike [item] [item']) :
    SimulatedBy C (fun _ _ => True) (tell item : Logged τ ε Unit)
      (tell item' : Logged σ δ Unit) :=
  ok rfl rfl trivial h

theorem mono {R' : α → β → Prop} {x : Logged τ ε α} {y : Logged σ δ β}
    (h : SimulatedBy C R x y) (hR : ∀ a b, R a b → R' a b) : SimulatedBy C R' x y := by
  cases h with
  | ok hx hy h hlog => exact ok hx hy (hR _ _ h) hlog
  | error hx hy he hlog => exact error hx hy he hlog
  | trap hy hitem ht => exact trap hy hitem ht
  | cutOff hx he => exact cutOff hx he

theorem bind {x : Logged τ ε α} {y : Logged σ δ β} {f : α → Logged τ ε γ} {g : β → Logged σ δ κ}
    (h : SimulatedBy C R x y) (hf : ∀ a b, R a b → SimulatedBy C S (f a) (g b)) :
    SimulatedBy C S (x >>= f) (y >>= g) := by
  cases h with
  | error hx hy he hlog =>
    rw [bind_of_error hx, bind_of_error hy]
    exact error rfl rfl he hlog
  | cutOff hx he =>
    rw [bind_of_error hx]
    exact cutOff rfl he
  | @trap d item hy hitem ht =>
    rw [bind_of_error hy]
    refine trap rfl ?_ ht
    cases hx : x.result with
    | ok a => rw [bind_of_ok hx]; exact List.mem_append_left _ hitem
    | error e => rw [bind_of_error hx]; exact hitem
  | ok hx hy hR hlog =>
    rw [bind_of_ok hx, bind_of_ok hy]
    cases hf _ _ hR with
    | ok hx' hy' hS hlog' => exact ok hx' hy' hS (C.alike_append hlog hlog')
    | error hx' hy' he hlog' => exact error hx' hy' he (C.alike_append hlog hlog')
    | trap hy' hitem ht => exact trap hy' (List.mem_append_right _ hitem) ht
    | cutOff hx' he => exact cutOff hx' he

/-- A last step of the first that only changes its value. -/
theorem map_left {x : Logged τ ε α} {y : Logged σ δ β} {f : α → γ} {R' : γ → β → Prop}
    (h : SimulatedBy C R x y) (hf : ∀ a b, R a b → R' (f a) b) :
    SimulatedBy C R' (x >>= fun a => Pure.pure (f a)) y := by
  cases h with
  | @ok a b hx hy hR hlog =>
    rw [bind_of_ok hx, log_pure, List.append_nil]
    exact ok rfl hy (hf a b hR) hlog
  | error hx hy he hlog =>
    rw [bind_of_error hx]
    exact error rfl hy he hlog
  | cutOff hx he =>
    rw [bind_of_error hx]
    exact cutOff rfl he
  | trap hy hitem ht =>
    refine trap hy ?_ ht
    cases hx : x.result with
    | ok a => rw [bind_of_ok hx]; exact List.mem_append_left _ hitem
    | error e => rw [bind_of_error hx]; exact hitem

/-- A step of the first that the second does not take. -/
theorem bind_left {x : Logged τ ε α} {y : Logged σ δ κ} {f : α → Logged τ ε γ} {a : α}
    (hx : x.result = .ok a) (hlog : C.alike x.log []) (h : SimulatedBy C S (f a) y) :
    SimulatedBy C S (x >>= f) y := by
  rw [bind_of_ok hx]
  cases h with
  | ok hx' hy hS hlog' => exact ok hx' hy hS (C.alike_append hlog hlog')
  | error hx' hy he hlog' => exact error hx' hy he (C.alike_append hlog hlog')
  | trap hy hitem ht => exact trap hy (List.mem_append_right _ hitem) ht
  | cutOff hx' he => exact cutOff hx' he

end SimulatedBy

/-! ## Weight -/

/-- The weight of a log. -/
def weight (w : τ → ℕ) : List τ → ℕ
  | [] => 0
  | item :: log => w item + weight w log

@[simp] theorem weight_nil (w : τ → ℕ) : weight w [] = 0 := rfl

@[simp] theorem weight_cons (w : τ → ℕ) (item : τ) (log : List τ) :
    weight w (item :: log) = w item + weight w log := rfl

@[simp] theorem weight_append (w : τ → ℕ) (log₁ log₂ : List τ) :
    weight w (log₁ ++ log₂) = weight w log₁ + weight w log₂ := by
  induction log₁ with
  | nil => rw [List.nil_append, weight_nil, Nat.zero_add]
  | cons item log₁ ih => rw [List.cons_append, weight_cons, weight_cons, ih, Nat.add_assoc]

/-- Out of `n`, the computation spends the weight of its log and leaves `left` of its value. -/
def Spends (w : τ → ℕ) (n : ℕ) (x : Logged τ ε α) (left : α → ℕ) : Prop :=
  weight w x.log ≤ n ∧ ∀ a, x.result = .ok a → weight w x.log + left a ≤ n

variable {w : τ → ℕ} {n : ℕ}

theorem Spends.pure {a : α} {left : α → ℕ} (h : left a ≤ n) :
    Spends w n (pure a : Logged τ ε α) left := by
  refine ⟨Nat.zero_le n, fun b hb => ?_⟩
  obtain rfl : a = b := Except.ok.inj hb
  rw [log_pure, weight_nil, Nat.zero_add]
  exact h

theorem Spends.fail {e : ε} {left : α → ℕ} : Spends w n (fail e : Logged τ ε α) left :=
  ⟨Nat.zero_le n, nofun⟩

theorem Spends.frame {x : Logged τ ε α} {left : α → ℕ} (h : Spends w n x left) (k : ℕ) :
    Spends w (n + k) x fun a => left a + k := by
  obtain ⟨hlog, hleft⟩ := h
  refine ⟨Nat.le_trans hlog (Nat.le_add_right n k), fun a ha => ?_⟩
  rw [← Nat.add_assoc]
  exact Nat.add_le_add_right (hleft a ha) k

theorem Spends.mono {x : Logged τ ε α} {left left' : α → ℕ} {n' : ℕ} (h : Spends w n x left)
    (hn : n ≤ n') (hle : ∀ a, left' a ≤ left a) : Spends w n' x left' := by
  obtain ⟨hlog, hleft⟩ := h
  refine ⟨Nat.le_trans hlog hn, fun a ha => ?_⟩
  have := hleft a ha
  have := hle a
  omega

theorem Spends.bind {x : Logged τ ε α} {f : α → Logged τ ε β} {left : α → ℕ} {left' : β → ℕ}
    (h : Spends w n x left) (hf : ∀ a, x.result = .ok a → Spends w (left a) (f a) left') :
    Spends w n (x >>= f) left' := by
  obtain ⟨hlog, hleft⟩ := h
  cases hx : x.result with
  | error e =>
    rw [bind_of_error hx]
    exact ⟨hlog, nofun⟩
  | ok a =>
    obtain ⟨hlog', hleft'⟩ := hf a hx
    have ha := hleft a hx
    rw [bind_of_ok hx]
    refine ⟨?_, fun b hb => ?_⟩
    · rw [weight_append]
      omega
    · have hb' := hleft' b hb
      rw [weight_append]
      omega

theorem Spends.tell_bind {item : τ} {f : Unit → Logged τ ε α} {left : α → ℕ}
    (hitem : w item ≤ n) (hf : Spends w (n - w item) (f ()) left) :
    Spends w n (tell item >>= f) left := by
  obtain ⟨hlog, hleft⟩ := hf
  refine ⟨?_, fun b hb => ?_⟩
  · rw [Logged.tell_bind, weight_cons]
    omega
  · have hb' := hleft b hb
    rw [Logged.tell_bind, weight_cons]
    omega

/-- The value is no larger than `n` and the weight of the log. -/
def Gains (w : τ → ℕ) (n : ℕ) (x : Logged τ ε α) (size : α → ℕ) : Prop :=
  ∀ a, x.result = .ok a → size a ≤ n + weight w x.log

theorem Gains.pure {a : α} {size : α → ℕ} (h : size a ≤ n) :
    Gains w n (pure a : Logged τ ε α) size := by
  intro b hb
  obtain rfl : a = b := Except.ok.inj hb
  exact Nat.le_add_right_of_le h

theorem Gains.fail {e : ε} {size : α → ℕ} : Gains w n (fail e : Logged τ ε α) size := nofun

/-- Whatever the value, it has no size. -/
theorem Gains.zero (x : Logged τ ε α) : Gains w n x fun _ => 0 := fun _ _ => Nat.zero_le _

/-- A value that has the size it started from. -/
theorem Gains.const (x : Logged τ ε α) : Gains w n x fun _ => n :=
  fun _ _ => Nat.le_add_right _ _

theorem Gains.frame {x : Logged τ ε α} {size : α → ℕ} (h : Gains w n x size) (k : ℕ) :
    Gains w (n + k) x fun a => size a + k := by
  intro a ha
  rw [Nat.add_right_comm]
  exact Nat.add_le_add_right (h a ha) k

theorem Gains.bind {x : Logged τ ε α} {f : α → Logged τ ε β} {size : α → ℕ} {size' : β → ℕ}
    (h : Gains w n x size) (hf : ∀ a, Gains w (size a) (f a) size') :
    Gains w n (x >>= f) size' := by
  intro b hb
  cases hx : x.result with
  | error e =>
    rw [bind_of_error hx] at hb
    exact nomatch hb
  | ok a =>
    rw [bind_of_ok hx] at hb ⊢
    have ha := h a hx
    have hb' := hf a b hb
    rw [weight_append]
    omega

theorem Gains.tell_bind {item : τ} {f : Unit → Logged τ ε α} {size : α → ℕ}
    (hf : Gains w (n + w item) (f ()) size) : Gains w n (tell item >>= f) size := by
  intro b hb
  have hb' := hf b hb
  rw [Logged.tell_bind, weight_cons]
  omega

/-! ## Computations with a bound -/

/-- `x` is `y`, unless it was cut off by `e`. -/
def Approximates (e : ε) (x y : Logged τ ε α) : Prop := x.result = .error e ∨ x = y

namespace Approximates

variable {e : ε}

theorem refl (x : Logged τ ε α) : Approximates e x x := .inr rfl

theorem fail (y : Logged τ ε α) : Approximates e (fail e) y := .inl rfl

theorem bind {x y : Logged τ ε α} {f g : α → Logged τ ε β} (h : Approximates e x y)
    (hf : ∀ a, Approximates e (f a) (g a)) : Approximates e (x >>= f) (y >>= g) := by
  rcases h with hx | rfl
  · rw [bind_of_error hx]
    exact .inl rfl
  · cases hx : x.result with
    | error d =>
      rw [bind_of_error hx, bind_of_error hx]
      exact refl _
    | ok a =>
      rw [bind_of_ok hx, bind_of_ok hx]
      rcases hf a with hfa | hfa
      · exact .inl hfa
      · rw [hfa]
        exact refl _

end Approximates

end Logged
