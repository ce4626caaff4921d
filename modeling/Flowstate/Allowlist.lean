import Flowstate.IsolationGate
import Flowstate.Toml

/-!
# Which dependencies the isolation gate sees

The gate reads a manifest by two patterns, cargo reads it as TOML. What each line means to
cargo is the path it defines (`Line.dependency`), what it is to the gate its reading
(`readings`). The two part ways over a header with a comment behind it, with a bracket in it
or of a target table, which leaves the gate in the table before it, and over a quoted key,
which it does not read at all (`sees_iff`).
-/

namespace Flowstate.IsolationGate

open Python Toml

/-! ## Dependencies -/

inductive Kind
  | normal
  | dev
  | build
deriving DecidableEq

/-- The tables that hold dependencies. -/
def dependencyTables : List (Name × Kind) :=
  [("dependencies".toList, .normal), ("dev-dependencies".toList, .dev),
    ("build-dependencies".toList, .build)]

def ofTable : List Name → Option (Kind × Name)
  | table :: name :: _ => (dependencyTables.lookup table).map fun kind => (kind, name)
  | _ => none

/-- The dependency that a path belongs to, of the package or of a target. -/
def dependency : List Name → Option (Kind × Name)
  | [] => none
  | first :: path =>
    if first = "target".toList then ofTable (path.drop 1) else ofTable (first :: path)

variable (unescape : List Char → Name)

/-- The dependency that a line declares in a manifest that starts with `before`. -/
def declares (before : List Line) (line : Line) : Option (Kind × Name) :=
  (line.defines unescape (tableAfter unescape before)).bind dependency

/-! ## Readings -/

/-- A name whose first part is a bare `dependencies`, with nothing behind it or a dot right
behind it. -/
def startsDependencies (path : Path) : Bool :=
  match path.first.part with
  | .bare text _ _ =>
    text = "dependencies".toList && (path.rest.isEmpty || path.first.after.1.isEmpty)
  | .literal _ _ | .basic _ _ => false

/-- What the gate takes a line for that it reads as a whole. -/
def reading : Line → Option Reading
  | .header _ array path _ remark =>
    if array = false ∧ remark.isNone ∧ ']' ∉ path.text then
      some (.header (startsDependencies path))
    else none
  | .key path _ => if path.compact then some (.key path.trimmed) else none
  | .comment _ _ | .blank _ => none

/-- What the gate takes a line for. It cuts a line at any Unicode line break in it, and reads
the pieces. -/
def readings (line : Line) : List Reading :=
  if line.text.all fun c => !isLineBreak c then (reading line).toList
  else (splitlines line.text).filterMap read

theorem isSpace_of_isBlank {c : Char} (h : isBlank c) : isSpace c := by
  rcases (by simpa [isBlank] using h : c = ' ' ∨ c = '\t') with rfl | rfl <;> rfl

theorem isSpace_of_blanks (b : Blanks) : ∀ c ∈ b.1, isSpace c :=
  fun c hc => isSpace_of_isBlank (b.2 c hc)

theorem isKeyChar_of_isBareChar {c : Char} (h : isBareChar c) : isKeyChar c := by
  simp only [isBareChar, isKeyChar, Bool.or_eq_true, beq_iff_eq] at h ⊢
  tauto

theorem isSpace_of_isQuote {c : Char} (h : IsQuote c) : isSpace c = false := by
  rcases h with rfl | rfl <;> rfl

theorem isKeyChar_of_isQuote {c : Char} (h : IsQuote c) : isKeyChar c = false := by
  rcases h with rfl | rfl <;> rfl

/-- A name starts with no white space. -/
theorem isSpace_of_start {c : Char} (h : isBareChar c ∨ IsQuote c) : isSpace c = false :=
  h.elim (fun h => isSpace_of_isKeyChar (isKeyChar_of_isBareChar h)) isSpace_of_isQuote

/-- What is stripped of a name is the blanks around it. -/
theorem strip_text (path : Path) : strip path.text = path.trimmed := by
  obtain ⟨after, htext⟩ := path.exists_text_eq
  obtain ⟨c, w, hw, hc⟩ := exists_head_trimmed path.first path.rest
  obtain ⟨w', d, hw', hd⟩ := exists_getLast_trimmed path.first path.rest
  rw [htext]
  refine strip_append (isSpace_of_blanks _) (isSpace_of_blanks _) ?_ (fun x hx => ?_)
    fun x hx => ?_
  · rw [Path.trimmed, hw]
    exact List.cons_ne_nil c w
  · rw [Path.trimmed, hw] at hx
    exact Option.some.inj hx ▸ isSpace_of_start hc
  · rw [Path.trimmed, hw', List.getLast?_concat] at hx
    exact Option.some.inj hx ▸ isSpace_of_start hd

theorem all_isKeyChar_blanks (b : Blanks) : b.1.all isKeyChar = b.1.isEmpty := by
  obtain ⟨text, htext⟩ := b
  rcases text with - | ⟨c, text⟩
  · rfl
  · have hspace := isSpace_of_isBlank (htext c List.mem_cons_self)
    have hkey : isKeyChar c = false := Bool.eq_false_iff.2 fun hkey => by
      rw [isSpace_of_isKeyChar hkey] at hspace
      cases hspace
    simp [hkey]

theorem all_isKeyChar_part (part : Part) : part.text.all isKeyChar = part.isBare := by
  rcases part with ⟨text, ne, chars⟩ | ⟨text, -⟩ | ⟨text, -⟩
  · exact List.all_eq_true.2 fun c hc => isKeyChar_of_isBareChar (chars c hc)
  · rfl
  · rfl

/-- The characters of a plain key are those of bare parts and the dots between them. -/
theorem all_isKeyChar_trimmed : ∀ (s : Segment) (rest : List Segment),
    (Toml.trimmed s rest).all isKeyChar = Toml.compact s rest
  | s, [] => all_isKeyChar_part s.part
  | s, next :: rest => by
    rw [Toml.trimmed, Toml.compact, List.all_append, List.all_append, List.all_cons,
      List.all_append, all_isKeyChar_part, all_isKeyChar_blanks, all_isKeyChar_blanks,
      all_isKeyChar_trimmed next rest, Bool.and_assoc, Bool.and_assoc]
    rfl

/-- A text starts with another and a dot just when the other is what stands before its first
dot. -/
theorem startswith_dot {text start : List Char} (htext : '.' ∉ text) (hstart : '.' ∉ start)
    (tail : List Char) :
    startswith (text ++ '.' :: tail) (start ++ ['.']) = decide (text = start) := by
  have htake : ∀ {u : List Char} (w : List Char), '.' ∉ u →
      (u ++ '.' :: w).takeWhile (· != '.') = u := fun w hu =>
    (span_append (fun c hc => bne_iff_ne.2 (ne_of_mem_of_not_mem hc hu)) (by simp)).1
  rw [startswith, Bool.eq_iff_iff, List.isPrefixOf_iff_prefix, decide_eq_true_iff]
  constructor
  · rintro ⟨w, hw⟩
    rw [List.append_assoc] at hw
    rw [← htake tail htext, ← hw]
    exact htake w hstart
  · rintro rfl
    exact ⟨tail, by simp⟩

/-- The header that the gate takes for a dependencies table, told by its parts. -/
theorem isDependencies_text (path : Path) : isDependencies path.text = startsDependencies path := by
  have hname : '.' ∉ "dependencies".toList := by decide
  have hdot : "dependencies.".toList = "dependencies".toList ++ ['.'] := rfl
  have hquote : ∀ {q : Char}, IsQuote q → ∀ w : List Char,
      (decide (q :: w = "dependencies".toList) ||
        startswith (q :: w) "dependencies.".toList) = false := by
    rintro q (rfl | rfl) w <;> rfl
  rw [isDependencies, strip_text, startsDependencies]
  generalize htrimmed : path.trimmed = trimmed
  rcases path with ⟨⟨before, ⟨text, ne, chars⟩ | ⟨text, _⟩ | ⟨text, _⟩, after⟩, - | ⟨next, rest⟩⟩
  · have htext : '.' ∉ text := fun hmem => absurd (chars _ hmem) (by decide)
    have hstart : startswith text "dependencies.".toList = false := by
      refine Bool.eq_false_iff.2 fun h => htext ?_
      exact (List.isPrefixOf_iff_prefix.1 h).subset (by decide)
    obtain rfl : text = trimmed := htrimmed
    dsimp only
    rw [hstart, Bool.or_false, List.isEmpty_nil, Bool.true_or, Bool.and_true]
  · have htext : '.' ∉ text ++ after.1 := by
      rw [List.mem_append, not_or]
      exact ⟨fun hmem => absurd (chars _ hmem) (by decide),
        fun hmem => absurd (after.2 _ hmem) (by decide)⟩
    obtain ⟨tail, rfl⟩ : ∃ tail, text ++ after.1 ++ '.' :: tail = trimmed :=
      ⟨_, (List.append_assoc _ _ _).trans htrimmed⟩
    have hne : text ++ after.1 ++ '.' :: tail ≠ "dependencies".toList := fun heq =>
      hname (heq ▸ List.mem_append_right _ List.mem_cons_self)
    dsimp only
    rw [hdot, startswith_dot htext hname, decide_eq_false hne, Bool.false_or]
    rcases after with ⟨- | ⟨c, after⟩, hafter⟩
    · rw [List.append_nil]
      exact (Bool.and_true _).symm
    · -- a blank before the dot is part of what the gate reads
      have hblank : text ++ c :: after ≠ "dependencies".toList := by
        intro heq
        have hmem : c ∈ "dependencies".toList :=
          heq ▸ List.mem_append_right text List.mem_cons_self
        rcases (by simpa [isBlank] using hafter c List.mem_cons_self : c = ' ' ∨ c = '\t') with
          rfl | rfl <;> exact absurd hmem (by decide)
      rw [decide_eq_false hblank]
      exact (Bool.and_false _).symm
  · exact htrimmed ▸ hquote (.inl rfl) _
  · exact htrimmed ▸ hquote (.inl rfl) _
  · exact htrimmed ▸ hquote (.inr rfl) _
  · exact htrimmed ▸ hquote (.inr rfl) _

/-- A line that starts with neither a bracket nor a key is read as nothing. -/
theorem read_eq_none {indent text : List Char} {c : Char} (hindent : ∀ c ∈ indent, isSpace c)
    (hspace : isSpace c = false) (hkey : isKeyChar c = false) (hc : c ≠ '[') :
    read (indent ++ c :: text) = none := by
  rw [read, sectionHeader_eq_none hindent hspace hc, depKey_eq_none hindent hspace hkey]
  rfl

theorem read_bracket {indent inner : List Char} (hindent : ∀ c ∈ indent, isSpace c)
    (hinner : inner ≠ []) (tail : List Char) :
    read (indent ++ '[' :: (inner ++ ']' :: tail)) =
      if ']' ∉ inner ∧ tail.all isSpace then some (.header (isDependencies inner)) else none := by
  rw [read, sectionHeader_bracket hindent hinner,
    depKey_eq_none hindent (by decide) (by decide)]
  split_ifs <;> rfl

theorem path_text_ne_nil (path : Path) : path.text ≠ [] := by
  obtain ⟨c, w, hw, -⟩ := path.exists_start
  simp [hw]

theorem all_isSpace_tail (after : Blanks) (remark : Option FreeText) :
    (Line.tail after remark).all isSpace = remark.isNone := by
  have hafter : after.1.all isSpace := List.all_eq_true.2 (isSpace_of_blanks after)
  rcases remark with - | remark
  · exact hafter
  · rw [Line.tail, List.all_append, hafter]
    rfl

theorem read_header (indent : Blanks) (array : Bool) (path : Path) (after : Blanks)
    (remark : Option FreeText) :
    read (Line.header indent array path after remark).text =
      reading (.header indent array path after remark) := by
  have hindent := isSpace_of_blanks indent
  rw [Line.text, reading]
  split_ifs with harray hread hread
  · rw [harray] at hread
    cases hread.1
  · rw [read_bracket hindent (by simp), if_neg fun h => by cases h.2]
  · rw [read_bracket hindent (path_text_ne_nil path), all_isSpace_tail, if_pos hread.2.symm,
      isDependencies_text]
  · rw [read_bracket hindent (path_text_ne_nil path), all_isSpace_tail]
    exact if_neg fun h => hread ⟨by simpa using harray, h.2, h.1⟩

/-- The text of a name that `DEP_KEY_RE` matches before an equals sign is all of the name. -/
theorem exists_of_depKey_path {path : Path} {value key : List Char}
    (h : depKey (path.text ++ '=' :: value) = some key) : ∃ before after,
      path.text = before ++ (key ++ after) ∧ (∀ c ∈ before, isSpace c) ∧
        (∀ c ∈ after, isSpace c) ∧ key ≠ [] ∧ ∀ c ∈ key, isKeyChar c := by
  obtain ⟨before, after, rest, heq, hbefore, hafter, hne, hkey⟩ := depKey_eq_some.1 h
  -- neither a quote nor an equals sign is among what the pattern matched before the sign
  have hmatched : ∀ c ∈ before ++ (key ++ after), isSpace c ∨ isKeyChar c := by
    simp only [List.forall_mem_append]
    exact ⟨fun c hc => .inl (hbefore c hc), fun c hc => .inr (hkey c hc),
      fun c hc => .inl (hafter c hc)⟩
  have hsplit : path.text ++ '=' :: value = before ++ (key ++ after) ++ '=' :: rest := by
    simpa using heq
  suffices htext : path.text = before ++ (key ++ after) from
    ⟨before, after, htext, hbefore, hafter, hne, hkey⟩
  rcases List.append_eq_append_iff.1 hsplit with ⟨v, hv, hrest⟩ | ⟨v, hv, hrest⟩
  · rcases v with - | ⟨c, v⟩
    · simpa using hv.symm
    · obtain ⟨rfl, -⟩ := List.cons.inj hrest
      rcases hmatched '=' (by simp [hv]) with h | h <;> cases h
  · rcases v with - | ⟨c, v⟩
    · simpa using hv
    · obtain ⟨rfl, -⟩ := List.cons.inj hrest
      obtain ⟨q, hq, hquote⟩ := path.guarded_text _ v hv
      rcases hmatched q hq with h | h
      · rw [isSpace_of_isQuote hquote] at h
        cases h
      · rw [isKeyChar_of_isQuote hquote] at h
        cases h

theorem strip_text_ne_nil (path : Path) : strip path.text ≠ [] := by
  obtain ⟨c, w, hw, -⟩ := exists_head_trimmed path.first path.rest
  rw [strip_text, Path.trimmed, hw]
  exact List.cons_ne_nil c w

theorem depKey_path (path : Path) (value : List Char) :
    depKey (path.text ++ '=' :: value) = if path.compact then some path.trimmed else none := by
  have hstripped : ∀ {key : List Char}, depKey (path.text ++ '=' :: value) = some key →
      strip path.text = key ∧ ∀ c ∈ key, isKeyChar c := by
    intro key h
    obtain ⟨before, after, htext, hbefore, hafter, hne, hkey⟩ := exists_of_depKey_path h
    rw [htext]
    have hspace : ∀ c ∈ key, isSpace c = false := fun c hc => isSpace_of_isKeyChar (hkey c hc)
    exact ⟨strip_append hbefore hafter hne (fun c hc => hspace c (List.mem_of_mem_head? hc))
      fun c hc => hspace c (List.mem_of_mem_getLast? hc), hkey⟩
  rw [← strip_text, Path.compact, ← all_isKeyChar_trimmed, ← Path.trimmed, ← strip_text]
  split_ifs with hall
  · obtain ⟨before, after, htext, hbefore, hafter⟩ := exists_strip path.text
    refine depKey_eq_some.2 ⟨before, after, value, ?_, hbefore, hafter, strip_text_ne_nil path,
      List.all_eq_true.1 hall⟩
    conv_lhs => rw [htext]
    simp
  · rcases h : depKey (path.text ++ '=' :: value) with - | key
    · rfl
    · obtain ⟨hkey, hchars⟩ := hstripped h
      exact absurd (List.all_eq_true.2 (hkey ▸ hchars)) hall

theorem read_key (path : Path) (value : FreeText) :
    read (Line.key path value).text = reading (.key path value) := by
  obtain ⟨c, w, hw, hc⟩ := path.exists_start
  have hheader : sectionHeader (path.text ++ '=' :: value.1) = none := by
    rw [hw, List.append_assoc]
    refine sectionHeader_eq_none (isSpace_of_blanks _) (isSpace_of_start hc) ?_
    rintro rfl
    rcases hc with hc | hc | hc <;> exact absurd hc (by decide)
  rw [Line.text, read, hheader, depKey_path, reading]
  split_ifs <;> rfl

/-- A line that the gate reads as a whole is read as what it is. -/
theorem read_text (line : Line) : read line.text = reading line := by
  rcases line with ⟨indent, array, path, after, remark⟩ | ⟨path, value⟩ | ⟨indent, text⟩ | text
  · exact read_header indent array path after remark
  · exact read_key path value
  · exact read_eq_none (isSpace_of_blanks indent) (by decide) (by decide) (by decide)
  · have hstrip : lstrip text.1 = [] := by
      rw [← List.append_nil text.1, lstrip_append (isSpace_of_blanks text)]
      rfl
    rw [Line.text, read, sectionHeader, depKey, hstrip]
    rfl

/-- The gate reads a manifest line by line. -/
theorem filterMap_read_text (m : List Line) :
    (splitlines (Toml.text m)).filterMap read = m.flatMap readings := by
  have hread : ∀ line : Line, (splitlines line.text).filterMap read = readings line := by
    intro line
    rw [readings]
    split_ifs with hclean
    · have hbreak : ∀ c ∈ line.text, isLineBreak c = false := by simpa using hclean
      rw [filterMap_splitlines_of_forall rfl hbreak, read_text]
    · rfl
  have hlines : ∀ text ∈ m.map Line.text, '\r' ∉ text := by
    intro text htext hmem
    obtain ⟨line, -, rfl⟩ := List.mem_map.1 htext
    exact absurd (line.inLine_text _ hmem) (by decide)
  rw [Toml.text, filterMap_splitlines_intercalate rfl hlines, List.flatMap_map]
  simp only [hread]

/-! ## What the gate sees -/

theorem checkDependencyAllowlist_text (allowlist : Option (List Char)) (m : List Line) :
    checkDependencyAllowlist [] (some (Toml.text m)) allowlist =
      (reported allowlist false (m.flatMap readings)).map notAllowed := by
  rw [checkDependencyAllowlist_eq, filterMap_read_text, List.nil_append]

/-- What the gate promises of a manifest : a normal dependency outside the allowlist makes it
report an error, and no line that declares another dependency adds one. -/
structure Sees (allowlist : Option (List Char)) (m : List Line) : Prop where
  normal : ∀ before line after name, m = before ++ line :: after →
    declares unescape before line = some (.normal, name) → name ∉ loadLines allowlist →
      checkDependencyAllowlist [] (some (Toml.text m)) allowlist ≠ []
  others : ∀ before line after kind name, m = before ++ line :: after →
    declares unescape before line = some (kind, name) → kind ≠ .normal →
      checkDependencyAllowlist [] (some (Toml.text (before ++ [line]))) allowlist =
        checkDependencyAllowlist [] (some (Toml.text before)) allowlist

/-- A manifest keeps the promise just when a normal dependency outside the allowlist comes with
a key outside of it that is read under a dependencies header, and no line that declares another
dependency is such a key. -/
theorem sees_iff (allowlist : Option (List Char)) (m : List Line) :
    Sees unescape allowlist m ↔
      (∀ before line after name, m = before ++ line :: after →
        declares unescape before line = some (.normal, name) → name ∉ loadLines allowlist →
          Flagged allowlist false (m.flatMap readings)) ∧
      ∀ before line after kind name, m = before ++ line :: after →
        declares unescape before line = some (kind, name) → kind ≠ .normal →
          ¬Flagged allowlist (underDependencies (before.flatMap readings)) (readings line) := by
  have hnormal : checkDependencyAllowlist [] (some (Toml.text m)) allowlist ≠ [] ↔
      Flagged allowlist false (m.flatMap readings) := by
    rw [checkDependencyAllowlist_text, ne_eq, List.map_eq_nil_iff, reported_eq_nil, not_not]
  have hothers : ∀ before line,
      checkDependencyAllowlist [] (some (Toml.text (before ++ [line]))) allowlist =
        checkDependencyAllowlist [] (some (Toml.text before)) allowlist ↔
      ¬Flagged allowlist (underDependencies (before.flatMap readings)) (readings line) := by
    intro before line
    rw [checkDependencyAllowlist_text, checkDependencyAllowlist_text, List.flatMap_append,
      List.flatMap_singleton, reported, namesFrom_append, List.filter_append, List.map_append,
      ← reported, List.append_right_eq_self, List.map_eq_nil_iff, ← reported, ← reported_eq_nil]
    rfl
  constructor
  · rintro ⟨h, h'⟩
    exact ⟨fun before line after name hsplit hdep hname =>
        hnormal.1 (h before line after name hsplit hdep hname),
      fun before line after kind name hsplit hdep hkind =>
        (hothers before line).1 (h' before line after kind name hsplit hdep hkind)⟩
  · rintro ⟨h, h'⟩
    exact ⟨fun before line after name hsplit hdep hname =>
        hnormal.2 (h before line after name hsplit hdep hname),
      fun before line after kind name hsplit hdep hkind =>
        (hothers before line).2 (h' before line after kind name hsplit hdep hkind)⟩

/-! ## Dependencies it does not see -/

/-- A part without blanks around it. -/
def tight (part : Part) : Segment := ⟨⟨[], by simp⟩, part, ⟨[], by simp⟩⟩

def bareSegment (text : List Char) (ne : text.isEmpty = false) (chars : text.all isBareChar) :
    Segment :=
  tight (.bare text (List.isEmpty_eq_false_iff.1 ne) (List.all_eq_true.1 chars))

/-- `[dependencies] # shipped`. -/
def commentedHeader : Line :=
  .header ⟨[], by simp⟩ false ⟨bareSegment "dependencies".toList rfl rfl, []⟩
    ⟨[' '], List.all_eq_true.1 rfl⟩ (some ⟨" shipped".toList, List.all_eq_true.1 rfl⟩)

/-- `[target.'cfg(unix)'.dependencies]`. -/
def targetHeader : Line :=
  .header ⟨[], by simp⟩ false
    ⟨bareSegment "target".toList rfl rfl,
      [tight (.literal ⟨"cfg(unix)".toList, List.all_eq_true.1 rfl⟩ (by simp [apostrophe])),
        bareSegment "dependencies".toList rfl rfl]⟩ ⟨[], by simp⟩ none

/-- `tokio = "1"`. -/
def tokioKey : Line :=
  .key ⟨{ bareSegment "tokio".toList rfl rfl with after := ⟨[' '], List.all_eq_true.1 rfl⟩ }, []⟩
    ⟨" \"1\"".toList, List.all_eq_true.1 rfl⟩

/-- A dependency behind a header with a comment, or of a target, passes an empty allowlist. -/
theorem not_sees_tokio :
    ¬Sees id none [commentedHeader, tokioKey] ∧ ¬Sees id none [targetHeader, tokioKey] := by
  have hlisted : "tokio".toList ∉ loadLines none := List.not_mem_nil
  constructor
  · intro h
    exact h.normal [commentedHeader] tokioKey [] "tokio".toList rfl rfl hlisted (by decide)
  · intro h
    exact h.normal [targetHeader] tokioKey [] "tokio".toList rfl rfl hlisted (by decide)

end Flowstate.IsolationGate
