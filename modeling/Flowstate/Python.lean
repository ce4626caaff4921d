import Mathlib.Data.List.TakeWhile
import Mathlib.Tactic.Common

/-!
# What Python code takes from its language

A `str` is a list of code points. Kept as documented : which characters are white space and
which end a line, `splitlines`, `strip` and `startswith`.
-/

namespace Python

/-- `str.isspace`, which is also what `\s` matches. -/
def isSpace (c : Char) : Bool :=
  let n := c.toNat
  (0x09 ≤ n && n ≤ 0x0D) || (0x1C ≤ n && n ≤ 0x20) || n == 0x85 || n == 0xA0 || n == 0x1680 ||
    (0x2000 ≤ n && n ≤ 0x200A) || n == 0x2028 || n == 0x2029 || n == 0x202F || n == 0x205F ||
    n == 0x3000

/-- A character at which `splitlines` ends a line. -/
def isLineBreak (c : Char) : Bool :=
  let n := c.toNat
  (0x0A ≤ n && n ≤ 0x0D) || (0x1C ≤ n && n ≤ 0x1E) || n == 0x85 || n == 0x2028 || n == 0x2029

/-- The loop of `splitlines` : `line` is the line under way. -/
def splitlinesFrom (line : List Char) : List Char → List (List Char)
  | [] => if line = [] then [] else [line]
  | '\r' :: '\n' :: text => line :: splitlinesFrom [] text
  | c :: text =>
    if isLineBreak c then line :: splitlinesFrom [] text
    else splitlinesFrom (line ++ [c]) text

/-- `text.splitlines()`. -/
def splitlines (text : List Char) : List (List Char) := splitlinesFrom [] text

/-- `text.lstrip()`. -/
def lstrip (text : List Char) : List Char := text.dropWhile isSpace

/-- `text.strip()`. -/
def strip (text : List Char) : List Char := (lstrip (lstrip text).reverse).reverse

/-- `text.startswith(start)`. -/
def startswith (text start : List Char) : Bool := start.isPrefixOf text

/-! ## Lines -/

theorem splitlinesFrom_cons {c : Char} (hc : c ≠ '\r') (line text : List Char) :
    splitlinesFrom line (c :: text) =
      if isLineBreak c then line :: splitlinesFrom [] text
      else splitlinesFrom (line ++ [c]) text := by
  rw [splitlinesFrom]
  exact fun _ h => absurd h hc

/-- A text without a line break is a line. -/
theorem splitlinesFrom_of_forall : ∀ (line : List Char) {text : List Char},
    (∀ c ∈ text, isLineBreak c = false) →
      splitlinesFrom line text = if line ++ text = [] then [] else [line ++ text]
  | line, [], _ => by rw [splitlinesFrom, List.append_nil]
  | line, c :: text, h => by
    have ⟨hc, htext⟩ := List.forall_mem_cons.1 h
    have hr : c ≠ '\r' := by
      rintro rfl
      cases hc
    rw [splitlinesFrom_cons hr, if_neg (by simp [hc]), splitlinesFrom_of_forall _ htext]
    simp

variable {α : Type*} {f : List Char → Option α}

/-- A reader that ignores empty lines reads what stands before a newline, and what follows. -/
theorem filterMap_splitlinesFrom (hf : f [] = none) (rest : List Char) :
    ∀ (line : List Char) {text : List Char}, '\r' ∉ text →
      (splitlinesFrom line (text ++ '\n' :: rest)).filterMap f =
        (splitlinesFrom line text).filterMap f ++ (splitlines rest).filterMap f
  | line, [], _ => by
    rw [List.nil_append, splitlinesFrom_cons (by decide), if_pos (by decide), splitlinesFrom]
    split_ifs with h
    · rw [h, List.filterMap_cons_none hf]
      rfl
    · rcases hline : f line <;> simp [hline, splitlines]
  | line, c :: text, h => by
    have hc : c ≠ '\r' := fun hc => h (hc ▸ List.mem_cons_self)
    have htext : '\r' ∉ text := fun hmem => h (List.mem_cons_of_mem c hmem)
    rw [List.cons_append, splitlinesFrom_cons hc, splitlinesFrom_cons hc]
    split_ifs
    · have ih := filterMap_splitlinesFrom hf rest [] htext
      rcases hline : f line <;> simp [hline, ih]
    · exact filterMap_splitlinesFrom hf rest (line ++ [c]) htext

/-- A reader that ignores empty lines reads line by line. -/
theorem filterMap_splitlines_intercalate (hf : f [] = none) {lines : List (List Char)}
    (hlines : ∀ line ∈ lines, '\r' ∉ line) :
    (splitlines (['\n'].intercalate lines)).filterMap f =
      lines.flatMap fun line => (splitlines line).filterMap f := by
  induction lines with
  | nil => rfl
  | cons line lines ih =>
    have ⟨hline, hrest⟩ := List.forall_mem_cons.1 hlines
    cases lines with
    | nil => simp
    | cons next lines =>
      rw [List.flatMap_cons, ← ih hrest, List.intercalate_cons_cons, List.append_assoc]
      exact filterMap_splitlinesFrom hf _ [] hline

/-- A line is read as it stands. -/
theorem filterMap_splitlines_of_forall (hf : f [] = none) {text : List Char}
    (h : ∀ c ∈ text, isLineBreak c = false) :
    (splitlines text).filterMap f = (f text).toList := by
  rw [splitlines, splitlinesFrom_of_forall [] h, List.nil_append]
  split_ifs with hnil
  · rw [hnil, hf]
    rfl
  · rcases htext : f text <;> simp [htext]

/-! ## White space around a text -/

/-- A run of characters ends where the first other one stands. -/
theorem span_append {p : Char → Bool} {u w : List Char} (hu : ∀ c ∈ u, p c)
    (hw : ∀ c ∈ w.head?, p c = false) :
    (u ++ w).takeWhile p = u ∧ (u ++ w).dropWhile p = w := by
  rw [List.takeWhile_append_of_pos hu, List.dropWhile_append_of_pos hu]
  rcases w with - | ⟨c, w⟩
  · simp
  · simp [hw c rfl]

theorem lstrip_append {spaces : List Char} (h : ∀ c ∈ spaces, isSpace c) (text : List Char) :
    lstrip (spaces ++ text) = lstrip text :=
  List.dropWhile_append_of_pos h

theorem lstrip_cons {c : Char} (h : isSpace c = false) (text : List Char) :
    lstrip (c :: text) = c :: text := by
  rw [lstrip, List.dropWhile_cons_of_neg (by simp [h])]

/-- What stripping leaves out on the left. -/
theorem exists_lstrip (text : List Char) :
    ∃ spaces, text = spaces ++ lstrip text ∧ ∀ c ∈ spaces, isSpace c :=
  ⟨text.takeWhile isSpace, List.takeWhile_append_dropWhile.symm,
    fun _ hc => List.mem_takeWhile_imp hc⟩

theorem exists_strip (text : List Char) : ∃ before after,
    text = before ++ (strip text ++ after) ∧ (∀ c ∈ before, isSpace c) ∧
      ∀ c ∈ after, isSpace c := by
  obtain ⟨before, hbefore, hspace⟩ := exists_lstrip text
  obtain ⟨after, hafter, hspace'⟩ := exists_lstrip (lstrip text).reverse
  refine ⟨before, after.reverse, ?_, hspace, fun c hc => hspace' c (List.mem_reverse.1 hc)⟩
  rw [strip, ← List.reverse_append, ← hafter, List.reverse_reverse, ← hbefore]

/-- A text that neither starts nor ends with white space is what is left of it between white
space. -/
theorem strip_append {before text after : List Char} (hbefore : ∀ c ∈ before, isSpace c)
    (hafter : ∀ c ∈ after, isSpace c) (ne : text ≠ [])
    (hhead : ∀ c ∈ text.head?, isSpace c = false) (hlast : ∀ c ∈ text.getLast?, isSpace c = false) :
    strip (before ++ (text ++ after)) = text := by
  have hstart : ∀ {t u : List Char}, t ≠ [] → (∀ c ∈ t.head?, isSpace c = false) →
      lstrip (t ++ u) = t ++ u := by
    intro t u ht hspace
    obtain ⟨c, t, rfl⟩ := List.exists_cons_of_ne_nil ht
    exact lstrip_cons (hspace c rfl) (t ++ u)
  have hend := hstart (u := []) (List.reverse_ne_nil_iff.2 ne) fun c hc =>
    hlast c (List.head?_reverse ▸ hc)
  rw [List.append_nil] at hend
  rw [strip, lstrip_append hbefore, hstart ne hhead, List.reverse_append,
    lstrip_append fun c hc => hafter c (List.mem_reverse.1 hc), hend, List.reverse_reverse]

end Python
