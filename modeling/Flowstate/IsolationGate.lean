import Flowstate.Python

/-!
# The dependency allowlist of the isolation gate

The part of `scripts/check_sim_isolation.py` that keeps the dependencies of the simulation
core to an allowlist. It reads the manifest line by line and does not parse it : a regular
expression finds the headers of tables (`sectionHeader`), a second one the keys in them
(`depKey`), and every key under a header that starts with `dependencies` is taken for the
name of a crate. A file is its text as `read_text` returns it, or `none` when there is none.
-/

namespace Flowstate.IsolationGate

open Python

/-! ## Regular expressions -/

/-- `SECTION_HEADER_RE` : what stands between the brackets of a line that holds nothing else. -/
def sectionHeader (line : List Char) : Option (List Char) :=
  match lstrip line with
  | '[' :: rest =>
    let inner := rest.takeWhile (· ≠ ']')
    match rest.dropWhile (· ≠ ']') with
    | ']' :: after => if inner ≠ [] ∧ after.all isSpace then some inner else none
    | _ => none
  | _ => none

/-- `[A-Za-z0-9_.\-]`. -/
def isKeyChar (c : Char) : Bool := c.isAlphanum || c == '_' || c == '.' || c == '-'

/-- `DEP_KEY_RE` : a plain key before an equals sign. -/
def depKey (line : List Char) : Option (List Char) :=
  let rest := lstrip line
  let key := rest.takeWhile isKeyChar
  match lstrip (rest.dropWhile isKeyChar) with
  | '=' :: _ => if key ≠ [] then some key else none
  | _ => none

/-! ## Gate -/

/-- The lines of a fixture file that are neither blank nor comments. -/
def loadLines : Option (List Char) → List (List Char)
  | none => []
  | some text => (splitlines text).filterMap fun raw =>
    let line := strip raw
    if line = [] ∨ startswith line ['#'] then none else some line

/-- Whether the keys under a header are taken for crates. -/
def isDependencies (header : List Char) : Bool :=
  let stripped := strip header
  stripped = "dependencies".toList || startswith stripped "dependencies.".toList

/-- One line of the manifest. -/
def parseLine (state : Bool × List (List Char)) (rawLine : List Char) : Bool × List (List Char) :=
  let (inDepsTable, names) := state
  match sectionHeader rawLine with
  | some header => (isDependencies header, names)
  | none =>
    if inDepsTable then
      match depKey rawLine with
      | some name => (inDepsTable, names ++ [name])
      | none => (inDepsTable, names)
    else (inDepsTable, names)

/-- The names that the gate takes for dependencies. -/
def parseDependencyNames (cargoTomlText : List Char) : List (List Char) :=
  ((splitlines cargoTomlText).foldl parseLine (false, [])).2

def missingManifest : String := "Missing crates/sim/Cargo.toml"

def notAllowed (name : List Char) : String :=
  "crates/sim depends on '" ++ String.ofList name ++ "', which is not in " ++
    "scripts/allowed_sim_deps.txt (INV-0004: Simulation Core Isolation). Either remove the " ++
    "dependency or add it to the allowlist with justification."

/-- Append an error for every name outside the allowlist. -/
def checkDependencyAllowlist (errors : List String) (cargoToml allowlist : Option (List Char)) :
    List String :=
  match cargoToml with
  | none => errors ++ [missingManifest]
  | some text =>
    let allowed := loadLines allowlist
    (parseDependencyNames text).foldl
      (fun errors name => if name ∉ allowed then errors ++ [notAllowed name] else errors) errors

/-! ## What the patterns match -/

/-- A text up to its first bracket, and from there on. -/
theorem span_bracket {u : List Char} (hu : ']' ∉ u) (w : List Char) :
    (u ++ ']' :: w).takeWhile (· ≠ ']') = u ∧ (u ++ ']' :: w).dropWhile (· ≠ ']') = ']' :: w := by
  refine span_append (fun c hc => decide_eq_true fun heq => hu (heq ▸ hc)) ?_
  rintro _ ⟨⟩
  rfl

/-- A bracketed text is a header when no bracket is in it and nothing but space behind it. -/
theorem sectionHeader_bracket {indent inner : List Char} (hindent : ∀ c ∈ indent, isSpace c)
    (hinner : inner ≠ []) (tail : List Char) :
    sectionHeader (indent ++ '[' :: (inner ++ ']' :: tail)) =
      if ']' ∉ inner ∧ tail.all isSpace then some inner else none := by
  rw [sectionHeader, lstrip_append hindent, lstrip_cons (by decide)]
  by_cases hmem : ']' ∈ inner
  · -- the group ends at the first bracket, and another one follows
    obtain ⟨u, w, rfl, hu⟩ := List.eq_append_cons_of_mem hmem
    have hspan := span_bracket hu (w ++ ']' :: tail)
    rw [List.append_assoc, List.cons_append, if_neg fun h => h.1 hmem]
    simp only [hspan.1, hspan.2]
    refine if_neg fun h => ?_
    have hbracket := List.all_eq_true.1 h.2 ']' (by simp)
    cases hbracket
  · have hspan := span_bracket hmem tail
    simp only [hspan.1, hspan.2]
    exact if_congr (by simp [hinner, hmem]) rfl rfl

/-- A line that starts otherwise has no header. -/
theorem sectionHeader_eq_none {indent text : List Char} {c : Char}
    (hindent : ∀ c ∈ indent, isSpace c) (hspace : isSpace c = false) (hc : c ≠ '[') :
    sectionHeader (indent ++ c :: text) = none := by
  rw [sectionHeader, lstrip_append hindent, lstrip_cons hspace]
  split
  · rename_i heq
    exact absurd (List.cons.inj heq).1 hc
  · rfl

theorem isSpace_of_isKeyChar {c : Char} (h : isKeyChar c) : isSpace c = false := by
  have hrange : 0x2D ≤ c.toNat ∧ c.toNat ≤ 0x7A := by
    change (decide (65 ≤ c.val ∧ c.val ≤ 90) || (decide (97 ≤ c.val) && decide (c.val ≤ 122)) ||
      (decide (48 ≤ c.val) && decide (c.val ≤ 57)) || c == '_' || c == '.' || c == '-') = true at h
    simp only [Bool.or_eq_true, Bool.and_eq_true, decide_eq_true_eq, beq_iff_eq,
      UInt32.le_iff_toNat_le] at h
    rcases h with ((((h | h) | h) | rfl) | rfl) | rfl
    · exact ⟨h.1.trans' (by decide), h.2.trans (by decide)⟩
    · exact ⟨h.1.trans' (by decide), h.2.trans (by decide)⟩
    · exact ⟨h.1.trans' (by decide), h.2.trans (by decide)⟩
    all_goals decide
  simp only [isSpace, Bool.or_eq_false_iff, Bool.and_eq_false_iff, decide_eq_false_iff_not,
    beq_eq_false_iff_ne]
  omega

/-- A line has a key just when it starts with one, blanks around it, and an equals sign. -/
theorem depKey_eq_some {line key : List Char} :
    depKey line = some key ↔ ∃ before after rest, line = before ++ (key ++ (after ++ '=' :: rest)) ∧
      (∀ c ∈ before, isSpace c) ∧ (∀ c ∈ after, isSpace c) ∧ key ≠ [] ∧ ∀ c ∈ key, isKeyChar c := by
  constructor
  · intro h
    obtain ⟨before, hline, hbefore⟩ := exists_lstrip line
    obtain ⟨after, hdrop, hafter⟩ := exists_lstrip ((lstrip line).dropWhile isKeyChar)
    rw [depKey] at h
    split at h
    · rename_i rest heq
      split_ifs at h with hne
      obtain rfl := Option.some.inj h
      refine ⟨before, after, rest, ?_, hbefore, hafter, hne, fun c hc => List.mem_takeWhile_imp hc⟩
      rw [← heq, ← hdrop, List.takeWhile_append_dropWhile, ← hline]
    · cases h
  · rintro ⟨before, after, rest, rfl, hbefore, hafter, hne, hkey⟩
    obtain ⟨c, key, rfl⟩ := List.exists_cons_of_ne_nil hne
    have hstart : lstrip (c :: (key ++ (after ++ '=' :: rest))) =
        c :: (key ++ (after ++ '=' :: rest)) :=
      lstrip_cons (isSpace_of_isKeyChar (hkey c List.mem_cons_self)) _
    -- the key ends where its last character is followed by a blank or the sign
    have hstop : ∀ d ∈ (after ++ '=' :: rest).head?, isKeyChar d = false := by
      intro d hd
      rcases after with - | ⟨d', after⟩
      · obtain rfl := Option.some.inj hd
        rfl
      · obtain rfl := Option.some.inj hd
        by_contra hchar
        have hspace := isSpace_of_isKeyChar (by simpa using hchar)
        rw [hafter _ List.mem_cons_self] at hspace
        cases hspace
    obtain ⟨htake, hdrop⟩ := span_append hkey hstop
    rw [depKey, lstrip_append hbefore, List.cons_append, hstart, ← List.cons_append, htake, hdrop,
      lstrip_append hafter, lstrip_cons (by decide)]
    rfl

/-- A line that starts otherwise has no key. -/
theorem depKey_eq_none {indent text : List Char} {c : Char}
    (hindent : ∀ c ∈ indent, isSpace c) (hspace : isSpace c = false) (hkey : isKeyChar c = false) :
    depKey (indent ++ c :: text) = none := by
  rw [depKey, lstrip_append hindent, lstrip_cons hspace,
    List.takeWhile_cons_of_neg (by simp [hkey])]
  split
  · exact if_neg fun h => h rfl
  · rfl

/-! ## What the gate makes of a manifest -/

/-- What the gate takes a line for : a header, of a dependencies table or not, or a key. -/
inductive Reading
  | header (dependencies : Bool)
  | key (name : List Char)
deriving DecidableEq

def read (line : List Char) : Option Reading :=
  match sectionHeader line with
  | some header => some (.header (isDependencies header))
  | none => (depKey line).map .key

/-- Whether the keys behind a reading stand under a dependencies header. -/
def Reading.under (under : Bool) : Reading → Bool
  | .header dependencies => dependencies
  | .key _ => under

/-- Whether the last header read is one of a dependencies table. -/
def underDependencies (readings : List Reading) : Bool := readings.foldl Reading.under false

/-- The keys that stand under a dependencies header, `under` one at the start. -/
def namesFrom : Bool → List Reading → List (List Char)
  | _, [] => []
  | _, .header dependencies :: rs => namesFrom dependencies rs
  | true, .key name :: rs => name :: namesFrom true rs
  | false, .key _ :: rs => namesFrom false rs

theorem foldl_parseLine : ∀ (lines : List (List Char)) (inDepsTable : Bool)
    (names : List (List Char)), (lines.foldl parseLine (inDepsTable, names)).2 =
      names ++ namesFrom inDepsTable (lines.filterMap read)
  | [], _, names => by simp [namesFrom]
  | line :: lines, inDepsTable, names => by
    rw [List.foldl_cons, List.filterMap_cons, parseLine, read]
    rcases sectionHeader line with - | header
    · rcases depKey line with - | name <;> cases inDepsTable <;>
        simp [foldl_parseLine lines, namesFrom]
    · simp [foldl_parseLine lines, namesFrom]

/-- The names read after `rs` start where `rs` ends. -/
theorem namesFrom_append (rs' : List Reading) : ∀ (rs : List Reading) (under : Bool),
    namesFrom under (rs ++ rs') = namesFrom under rs ++ namesFrom (rs.foldl Reading.under under) rs'
  | [], _ => by simp [namesFrom]
  | .header dependencies :: rs, _ => by
    simp [namesFrom, namesFrom_append rs' rs, Reading.under]
  | .key _ :: rs, true => by simp [namesFrom, namesFrom_append rs' rs, Reading.under]
  | .key _ :: rs, false => by simp [namesFrom, namesFrom_append rs' rs, Reading.under]

/-- A name is read where a key with it stands under a dependencies header. -/
theorem mem_namesFrom {name : List Char} : ∀ {rs : List Reading} {under : Bool},
    name ∈ namesFrom under rs ↔
      ∃ before after, rs = before ++ .key name :: after ∧ before.foldl Reading.under under
  | [], under => by simp [namesFrom]
  | r :: rs, under => by
    constructor
    · intro h
      have hrest : name ∈ namesFrom (r.under under) rs → ∃ before after,
          r :: rs = before ++ .key name :: after ∧ before.foldl Reading.under under := by
        intro h
        obtain ⟨before, after, rfl, hunder⟩ := mem_namesFrom.1 h
        exact ⟨r :: before, after, rfl, hunder⟩
      rcases r with dependencies | name' <;> rcases under with - | -
      · exact hrest h
      · exact hrest h
      · exact hrest h
      · rcases List.mem_cons.1 h with rfl | h
        · exact ⟨[], rs, rfl, rfl⟩
        · exact hrest h
    · rintro ⟨before, after, hsplit, hunder⟩
      rw [hsplit, namesFrom_append, hunder]
      simp [namesFrom]

/-! ## What the gate reports -/

/-- A key outside the allowlist is read under a dependencies header, `under` one at first. -/
def Flagged (allowlist : Option (List Char)) (under : Bool) (rs : List Reading) : Prop :=
  ∃ before name after, rs = before ++ .key name :: after ∧
    before.foldl Reading.under under ∧ name ∉ loadLines allowlist

/-- The names that the gate reports. -/
def reported (allowlist : Option (List Char)) (under : Bool) (rs : List Reading) :
    List (List Char) :=
  (namesFrom under rs).filter (· ∉ loadLines allowlist)

theorem reported_eq_nil {allowlist : Option (List Char)} {under : Bool} {rs : List Reading} :
    reported allowlist under rs = [] ↔ ¬Flagged allowlist under rs := by
  simp only [reported, List.filter_eq_nil_iff, mem_namesFrom, Flagged, decide_eq_true_eq]
  constructor
  · rintro h ⟨before, name, after, hsplit, hunder, hname⟩
    exact h name ⟨before, after, hsplit, hunder⟩ hname
  · rintro h name ⟨before, after, hsplit, hunder⟩ hname
    exact h ⟨before, name, after, hsplit, hunder, hname⟩

theorem checkDependencyAllowlist_eq (errors : List String) (text : List Char)
    (allowlist : Option (List Char)) :
    checkDependencyAllowlist errors (some text) allowlist = errors ++
      (reported allowlist false ((splitlines text).filterMap read)).map notAllowed := by
  rw [checkDependencyAllowlist, parseDependencyNames, foldl_parseLine, List.nil_append, reported]
  induction namesFrom false ((splitlines text).filterMap read) generalizing errors with
  | nil => simp
  | cons name names ih =>
    rw [List.foldl_cons, ih]
    by_cases h : name ∈ loadLines allowlist <;> simp [h]

end Flowstate.IsolationGate
