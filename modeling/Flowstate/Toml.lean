import Mathlib.Data.List.Basic
import Mathlib.Tactic.Common

/-!
# Tables and keys of a TOML document

The lines of a document that consists of headers, keys and comments, as TOML spells them : a
dotted name with blanks around its dots, its parts bare, literal or quoted, a header with a
comment behind it, a key with a value that ends on its line. A document is the list of its
lines. What it means is which path every line defines (`Line.defines`), given the table that
the headers before it have opened (`tableAfter`).

The escapes of a quoted part are not resolved here : `unescape` stands for the names they
give.
-/

namespace Toml

/-- A name as a list of code points. -/
abbrev Name := List Char

/-! ## Characters -/

def apostrophe : Char := Char.ofNat 39

def quotation : Char := Char.ofNat 34

def backslash : Char := Char.ofNat 92

/-- A character that does not end a line. -/
def inLine (c : Char) : Bool := c != '\n' && c != '\r'

def isBlank (c : Char) : Bool := c == ' ' || c == '\t'

def isBareChar (c : Char) : Bool := c.isAlphanum || c == '_' || c == '-'

/-- Text in which every quotation mark is escaped. -/
def isEscaped : List Char → Bool
  | [] => true
  | [c] => c != backslash && c != quotation
  | c :: d :: text =>
    if c = backslash then isEscaped text else c != quotation && isEscaped (d :: text)

abbrev Blanks := { text : List Char // ∀ c ∈ text, isBlank c }

abbrev FreeText := { text : List Char // ∀ c ∈ text, inLine c }

/-! ## Dotted names -/

inductive Part
  | bare (text : List Char) (ne : text ≠ []) (chars : ∀ c ∈ text, isBareChar c)
  | literal (text : FreeText) (unquoted : apostrophe ∉ text.1)
  | basic (text : FreeText) (escaped : isEscaped text.1)

def Part.text : Part → List Char
  | .bare text _ _ => text
  | .literal text _ => apostrophe :: (text.1 ++ [apostrophe])
  | .basic text _ => quotation :: (text.1 ++ [quotation])

def Part.isBare : Part → Bool
  | .bare _ _ _ => true
  | .literal _ _ | .basic _ _ => false

def Part.name (unescape : List Char → Name) : Part → Name
  | .bare text _ _ => text
  | .literal text _ => text.1
  | .basic text _ => unescape text.1

/-- A part with the blanks around it. -/
structure Segment where
  before : Blanks
  part : Part
  after : Blanks

def Segment.text (s : Segment) : List Char := s.before.1 ++ (s.part.text ++ s.after.1)

/-- Segments in a row, without the blanks in front of the first and behind the last. -/
def trimmed : Segment → List Segment → List Char
  | s, [] => s.part.text
  | s, next :: rest => s.part.text ++ (s.after.1 ++ '.' :: (next.before.1 ++ trimmed next rest))

/-- Whether all parts are bare and no blanks stand around the dots between them. -/
def compact : Segment → List Segment → Bool
  | s, [] => s.part.isBare
  | s, next :: rest =>
    s.part.isBare && s.after.1.isEmpty && next.before.1.isEmpty && compact next rest

structure Path where
  first : Segment
  rest : List Segment

namespace Path

def segments (p : Path) : List Segment := p.first :: p.rest

def text (p : Path) : List Char := ['.'].intercalate (p.segments.map Segment.text)

/-- The name without the blanks around it. -/
def trimmed (p : Path) : List Char := Toml.trimmed p.first p.rest

def compact (p : Path) : Bool := Toml.compact p.first p.rest

def names (unescape : List Char → Name) (p : Path) : List Name :=
  p.segments.map fun s => s.part.name unescape

end Path

/-! ## Lines -/

inductive Line
  /-- `[path]`, or `[[path]]` if `array`, and a comment. -/
  | header (indent : Blanks) (array : Bool) (path : Path) (after : Blanks)
      (remark : Option FreeText)
  | key (path : Path) (value : FreeText)
  | comment (indent : Blanks) (text : FreeText)
  | blank (text : Blanks)

namespace Line

/-- What stands behind the brackets of a header. -/
def tail (after : Blanks) : Option FreeText → List Char
  | some remark => after.1 ++ '#' :: remark.1
  | none => after.1

def text : Line → List Char
  | .header indent array path after remark =>
    if array then indent.1 ++ '[' :: ('[' :: path.text ++ ']' :: ']' :: tail after remark)
    else indent.1 ++ '[' :: (path.text ++ ']' :: tail after remark)
  | .key path value => path.text ++ '=' :: value.1
  | .comment indent text => indent.1 ++ '#' :: text.1
  | .blank text => text.1

/-- The table open after a line, none in an array of tables. -/
def opens (unescape : List Char → Name) (table : Option (List Name)) : Line → Option (List Name)
  | .header _ array path _ _ => if array then none else some (path.names unescape)
  | _ => table

/-- The path that a line defines, `table` being open. -/
def defines (unescape : List Char → Name) (table : Option (List Name)) :
    Line → Option (List Name)
  | .header _ array path _ _ => if array then none else some (path.names unescape)
  | .key path _ => table.map (· ++ path.names unescape)
  | .comment _ _ | .blank _ => none

end Line

/-- The text of a document. -/
def text (lines : List Line) : List Char := ['\n'].intercalate (lines.map Line.text)

/-- The table that `lines` leave open. A document starts in the root table. -/
def tableAfter (unescape : List Char → Name) (lines : List Line) : Option (List Name) :=
  lines.foldl (fun table line => line.opens unescape table) (some [])

/-! ## Characters of a line -/

theorem inLine_of_isBlank {c : Char} (h : isBlank c) : inLine c := by
  rcases (by simpa [isBlank] using h : c = ' ' ∨ c = '\t') with rfl | rfl <;> rfl

theorem inLine_of_isBareChar {c : Char} (h : isBareChar c) : inLine c := by
  by_contra hc
  rcases (by simpa [inLine, or_iff_not_imp_left] using hc : c = '\n' ∨ c = '\r') with rfl | rfl <;>
    exact absurd h (by decide)

theorem Part.inLine_text (p : Part) : ∀ c ∈ p.text, inLine c := by
  have hquoted : ∀ (q : Char) (text : FreeText), inLine q →
      ∀ c ∈ q :: (text.1 ++ [q]), inLine c := by
    intro q text hq
    rw [List.forall_mem_cons, List.forall_mem_append]
    exact ⟨hq, text.2, by simp [hq]⟩
  rcases p with ⟨text, ne, chars⟩ | ⟨text, -⟩ | ⟨text, -⟩
  · exact fun c hc => inLine_of_isBareChar (chars c hc)
  · exact hquoted apostrophe text rfl
  · exact hquoted quotation text rfl

theorem Segment.inLine_text (s : Segment) : ∀ c ∈ s.text, inLine c := by
  rw [Segment.text, List.forall_mem_append, List.forall_mem_append]
  exact ⟨fun c hc => inLine_of_isBlank (s.before.2 c hc), s.part.inLine_text,
    fun c hc => inLine_of_isBlank (s.after.2 c hc)⟩

theorem forall_mem_intercalate {P : Char → Prop} {sep : Char} (hsep : P sep) :
    ∀ {texts : List (List Char)}, (∀ text ∈ texts, ∀ c ∈ text, P c) →
      ∀ c ∈ [sep].intercalate texts, P c
  | [], _ => by simp
  | [text], h => by simpa using h
  | text :: next :: texts, h => by
    have ⟨htext, hrest⟩ := List.forall_mem_cons.1 h
    rw [List.intercalate_cons_cons, List.forall_mem_append, List.forall_mem_append]
    exact ⟨⟨htext, by simpa using hsep⟩, forall_mem_intercalate hsep hrest⟩

theorem Path.inLine_text (p : Path) : ∀ c ∈ p.text, inLine c := by
  refine forall_mem_intercalate (P := fun c => inLine c) rfl fun text htext => ?_
  obtain ⟨s, -, rfl⟩ := List.mem_map.1 htext
  exact s.inLine_text

theorem Line.inLine_tail (after : Blanks) (remark : Option FreeText) :
    ∀ c ∈ tail after remark, inLine c := by
  have hafter : ∀ c ∈ after.1, inLine c := fun c hc => inLine_of_isBlank (after.2 c hc)
  rcases remark with - | remark
  · exact hafter
  · rw [tail, List.forall_mem_append, List.forall_mem_cons]
    exact ⟨hafter, rfl, remark.2⟩

/-- A line has no newline in it. -/
theorem Line.inLine_text (line : Line) : ∀ c ∈ line.text, inLine c := by
  have hblanks : ∀ (b : Blanks), ∀ c ∈ b.1, inLine c := fun b c hc => inLine_of_isBlank (b.2 c hc)
  rcases line with ⟨indent, array, path, after, remark⟩ | ⟨path, value⟩ | ⟨indent, text⟩ | text
  · have htail := inLine_tail after remark
    rw [Line.text]
    split_ifs
    · simp only [List.forall_mem_append, List.forall_mem_cons]
      exact ⟨hblanks indent, rfl, ⟨rfl, path.inLine_text⟩, rfl, rfl, htail⟩
    · simp only [List.forall_mem_append, List.forall_mem_cons]
      exact ⟨hblanks indent, rfl, path.inLine_text, rfl, htail⟩
  · simp only [Line.text, List.forall_mem_append, List.forall_mem_cons]
    exact ⟨path.inLine_text, rfl, value.2⟩
  · simp only [Line.text, List.forall_mem_append, List.forall_mem_cons]
    exact ⟨hblanks indent, rfl, text.2⟩
  · exact hblanks text

/-! ## How a dotted name starts, and what stands in it -/

def IsQuote (c : Char) : Prop := c = apostrophe ∨ c = quotation

theorem exists_text_eq : ∀ (s : Segment) (rest : List Segment), ∃ after : Blanks,
    ['.'].intercalate ((s :: rest).map Segment.text) = s.before.1 ++ (trimmed s rest ++ after.1)
  | s, [] => ⟨s.after, by simp [Segment.text, trimmed]⟩
  | s, next :: rest => by
    obtain ⟨after, h⟩ := exists_text_eq next rest
    refine ⟨after, ?_⟩
    rw [List.map_cons, List.map_cons, List.intercalate_cons_cons, ← List.map_cons, h, trimmed,
      Segment.text]
    simp

/-- A name is what is left of it between blanks. -/
theorem Path.exists_text_eq (p : Path) : ∃ after : Blanks,
    p.text = p.first.before.1 ++ (p.trimmed ++ after.1) :=
  Toml.exists_text_eq p.first p.rest

theorem Part.exists_head (p : Part) : ∃ c w, p.text = c :: w ∧ (isBareChar c ∨ IsQuote c) := by
  rcases p with ⟨text, ne, chars⟩ | ⟨text, -⟩ | ⟨text, -⟩
  · obtain ⟨c, w, rfl⟩ := List.exists_cons_of_ne_nil ne
    exact ⟨c, w, rfl, .inl (chars c List.mem_cons_self)⟩
  · exact ⟨_, _, rfl, .inr (.inl rfl)⟩
  · exact ⟨_, _, rfl, .inr (.inr rfl)⟩

theorem Part.exists_getLast (p : Part) : ∃ w c, p.text = w ++ [c] ∧ (isBareChar c ∨ IsQuote c) := by
  rcases p with ⟨text, ne, chars⟩ | ⟨text, -⟩ | ⟨text, -⟩
  · obtain ⟨w, c, rfl⟩ := (List.eq_nil_or_concat text).resolve_left ne
    rw [List.concat_eq_append] at chars
    exact ⟨w, c, List.concat_eq_append, .inl (chars c (by simp))⟩
  · exact ⟨apostrophe :: text.1, _, rfl, .inr (.inl rfl)⟩
  · exact ⟨quotation :: text.1, _, rfl, .inr (.inr rfl)⟩

theorem exists_head_trimmed (s : Segment) (rest : List Segment) :
    ∃ c w, trimmed s rest = c :: w ∧ (isBareChar c ∨ IsQuote c) := by
  obtain ⟨c, w, hw, hc⟩ := s.part.exists_head
  cases rest with
  | nil => exact ⟨c, w, hw, hc⟩
  | cons next rest => exact ⟨c, _, by rw [trimmed, hw, List.cons_append], hc⟩

theorem exists_getLast_trimmed : ∀ (s : Segment) (rest : List Segment),
    ∃ w c, trimmed s rest = w ++ [c] ∧ (isBareChar c ∨ IsQuote c)
  | s, [] => s.part.exists_getLast
  | s, next :: rest => by
    obtain ⟨w, c, hw, hc⟩ := exists_getLast_trimmed next rest
    exact ⟨_, c, by rw [trimmed, hw, ← List.append_assoc, ← List.append_assoc, ← List.cons_append,
      ← List.append_assoc], hc⟩

/-- The first character of a name that is not blank. -/
theorem Path.exists_start (p : Path) : ∃ c w, p.text = p.first.before.1 ++ c :: w ∧
    (isBareChar c ∨ IsQuote c) := by
  obtain ⟨after, htext⟩ := p.exists_text_eq
  obtain ⟨c, w, hw, hc⟩ := exists_head_trimmed p.first p.rest
  exact ⟨c, w ++ after.1, by rw [htext, trimmed, hw, List.cons_append], hc⟩

/-- Text in which an equals sign stands only behind a quote. -/
def Guarded (text : List Char) : Prop :=
  ∀ u w, text = u ++ '=' :: w → ∃ q ∈ u, IsQuote q

theorem guarded_of_notMem {text : List Char} (h : '=' ∉ text) : Guarded text := by
  rintro u w rfl
  simp at h

theorem guarded_cons {q : Char} (hq : IsQuote q) (text : List Char) : Guarded (q :: text) := by
  intro u w h
  rcases u with - | ⟨c, u⟩
  · obtain ⟨rfl, -⟩ := List.cons.inj h
    rcases hq with hq | hq <;> exact absurd hq (by decide)
  · obtain ⟨rfl, -⟩ := List.cons.inj h
    exact ⟨q, List.mem_cons_self, hq⟩

theorem Guarded.append {s t : List Char} (hs : Guarded s) (ht : Guarded t) : Guarded (s ++ t) := by
  intro u w h
  rcases List.append_eq_append_iff.1 h with ⟨v, rfl, hv⟩ | ⟨v, rfl, hv⟩
  · obtain ⟨q, hq, hquote⟩ := ht v w hv
    exact ⟨q, List.mem_append_right s hq, hquote⟩
  · rcases v with - | ⟨c, v⟩
    · obtain ⟨q, hq, -⟩ := ht [] w hv.symm
      cases hq
    · obtain ⟨rfl, -⟩ := List.cons.inj hv
      exact hs u v rfl

theorem Path.guarded_text (p : Path) : Guarded p.text := by
  have hblanks : ∀ b : Blanks, Guarded b.1 := fun b =>
    guarded_of_notMem fun h => absurd (b.2 _ h) (by decide)
  have hpart : ∀ part : Part, Guarded part.text := by
    rintro (⟨text, ne, chars⟩ | ⟨text, -⟩ | ⟨text, -⟩)
    · exact guarded_of_notMem fun h => absurd (chars _ h) (by decide)
    · exact guarded_cons (.inl rfl) _
    · exact guarded_cons (.inr rfl) _
  have hall : ∀ segments : List Segment,
      Guarded (['.'].intercalate (segments.map Segment.text)) := by
    intro segments
    induction segments with
    | nil => exact guarded_of_notMem (by simp)
    | cons s segments ih =>
      have hs : Guarded s.text := (hblanks _).append ((hpart _).append (hblanks _))
      rcases segments with - | ⟨next, segments⟩
      · simpa using hs
      · rw [List.map_cons, List.map_cons, List.intercalate_cons_cons]
        exact (hs.append (guarded_of_notMem (by decide))).append ih
  exact hall p.segments

end Toml
