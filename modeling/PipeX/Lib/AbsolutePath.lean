/-
  PipeX.Lib.AbsolutePath

  Absolute paths in normal form, as lists of names, and their texts.

  `resolve` reads a text against a directory, `relative` writes the way from one path
  to another.

  * `resolve_text` — the text of a path is read as that path.
  * `relativeNames_cases` — the way goes down, or it goes up first.
  * `firstName_eq_iff` — how a text tells the name that it starts with.
-/
import Mathlib.Data.List.Infix
import Mathlib.Data.List.TakeWhile
import Mathlib.Tactic.Common

/-- A name in a directory. -/
structure IsName (name : List Char) : Prop where
  nonempty : name ≠ []
  unseparated : '/' ∉ name
  ne_here : name ≠ ['.']
  ne_up : name ≠ ['.', '.']

@[ext]
structure AbsolutePath where
  names : List (List Char)
  valid : ∀ name ∈ names, IsName name
deriving DecidableEq

namespace AbsolutePath

def root : AbsolutePath := ⟨[], nofun⟩

def text (path : AbsolutePath) : List Char := '/' :: ['/'].intercalate path.names

/-- The directory of the last name. -/
def dirname (path : AbsolutePath) : AbsolutePath :=
  ⟨path.names.dropLast, fun name hname => path.valid name (List.dropLast_subset _ hname)⟩

/-- The last name. -/
def basename (path : AbsolutePath) : List Char := path.names.getLastD []

/-- The last name of `path`, in another directory. -/
def moved (path directory : AbsolutePath) : AbsolutePath where
  names := directory.names ++ path.names.getLast?.toList
  valid := by
    intro name hname
    rcases List.mem_append.mp hname with hname | hname
    · exact directory.valid name hname
    · exact path.valid name (List.mem_of_getLast? (Option.mem_toList.mp hname))

/-! ## Resolution -/

/-- What a piece between two separators does. -/
def enter (names : List (List Char)) (piece : List Char) : List (List Char) :=
  if piece = [] ∨ piece = ['.'] then names
  else if piece = ['.', '.'] then names.dropLast
  else names ++ [piece]

theorem enter_name (names : List (List Char)) {name : List Char} (h : IsName name) :
    enter names name = names ++ [name] := by
  unfold enter
  rw [if_neg (not_or.mpr ⟨h.nonempty, h.ne_here⟩), if_neg h.ne_up]

theorem enter_valid {names : List (List Char)} {piece : List Char}
    (hnames : ∀ name ∈ names, IsName name) (hpiece : '/' ∉ piece) :
    ∀ name ∈ enter names piece, IsName name := by
  unfold enter
  split
  · exact hnames
  rename_i hsome
  split
  · exact fun name hname => hnames name (List.dropLast_subset _ hname)
  · rename_i hup
    intro name hname
    rcases List.mem_append.mp hname with hname | hname
    · exact hnames name hname
    · rw [List.mem_singleton.mp hname]
      exact ⟨fun h => hsome (.inl h), hpiece, fun h => hsome (.inr h), hup⟩

/-- No piece of a split contains what was split at. -/
theorem splitOn_unseparated (a : Char) (text : List Char) :
    ∀ piece ∈ text.splitOn a, a ∉ piece := by
  induction text with
  | nil =>
    rw [List.splitOn_nil, List.forall_mem_singleton]
    exact List.not_mem_nil
  | cons c text ih =>
    rw [List.splitOn_cons_eq_if_modifyHead]
    split
    · exact List.forall_mem_cons.mpr ⟨List.not_mem_nil, ih⟩
    · rename_i hne
      -- `c` goes in front of the first piece
      obtain ⟨first, rest, hsplit⟩ := List.exists_cons_of_ne_nil (List.splitOn_ne_nil a text)
      rw [hsplit] at ih ⊢
      obtain ⟨hfirst, hrest⟩ := List.forall_mem_cons.mp ih
      refine List.forall_mem_cons.mpr ⟨?_, hrest⟩
      rw [List.mem_cons, not_or]
      exact ⟨fun heq => hne (beq_iff_eq.mpr heq.symm), hfirst⟩

theorem enterAll_valid {names pieces : List (List Char)} (hnames : ∀ name ∈ names, IsName name)
    (hpieces : ∀ piece ∈ pieces, '/' ∉ piece) :
    ∀ name ∈ pieces.foldl enter names, IsName name := by
  induction pieces generalizing names with
  | nil => exact hnames
  | cons piece pieces ih =>
    refine ih (enter_valid hnames (hpieces piece (List.mem_cons_self ..))) ?_
    exact fun piece hpiece => hpieces piece (List.mem_cons_of_mem _ hpiece)

/-- A text, read in a directory. -/
def resolve (directory : AbsolutePath) (text : List Char) : AbsolutePath where
  names := (text.splitOn '/').foldl enter (if text.head? = some '/' then [] else directory.names)
  valid := by
    refine enterAll_valid ?_ (splitOn_unseparated '/' text)
    split
    · nofun
    · exact directory.valid

theorem foldl_enter (names : List (List Char)) {entered : List (List Char)}
    (h : ∀ name ∈ entered, IsName name) : entered.foldl enter names = names ++ entered := by
  induction entered generalizing names with
  | nil => rw [List.foldl_nil, List.append_nil]
  | cons name entered ih =>
    rw [List.foldl_cons, enter_name names (h name (List.mem_cons_self ..)),
      ih _ fun name hname => h name (List.mem_cons_of_mem _ hname), List.append_assoc]
    rfl

/-- The text of a path is read as that path, wherever it is read. -/
theorem resolve_text (directory path : AbsolutePath) : directory.resolve path.text = path := by
  apply AbsolutePath.ext
  show ((path.text).splitOn '/').foldl enter [] = path.names
  have hsplit : path.text.splitOn '/' = [] :: (['/'].intercalate path.names).splitOn '/' :=
    List.splitOn_append_cons_self [] _
  have hempty : enter [] [] = [] := rfl
  rw [hsplit, List.foldl_cons, hempty]
  by_cases hroot : path.names = []
  · rw [hroot]
    rfl
  · rw [List.splitOn_intercalate '/' (fun name hname => (path.valid name hname).unseparated) hroot,
      foldl_enter [] path.valid, List.nil_append]

/-! ## The way from one path to another -/

def relativeNames : List (List Char) → List (List Char) → List (List Char)
  | [], names => names
  | here :: rest, [] => (here :: rest).map fun _ => ['.', '.']
  | here :: rest, name :: names =>
    if here = name then relativeNames rest names
    else ((here :: rest).map fun _ => ['.', '.']) ++ name :: names

/-- The way goes down if the target is below, and up first otherwise. -/
theorem relativeNames_cases (here target : List (List Char)) :
    (here <+: target ∧ relativeNames here target = target.drop here.length) ∨
      (¬ here <+: target ∧ ∃ rest, relativeNames here target = ['.', '.'] :: rest) := by
  induction here generalizing target with
  | nil => exact .inl ⟨List.nil_prefix, rfl⟩
  | cons name here ih =>
    cases target with
    | nil => exact .inr ⟨fun h => absurd (List.prefix_nil.mp h) (List.cons_ne_nil _ _), _, rfl⟩
    | cons name' target =>
      unfold relativeNames
      split
      · rename_i heq
        subst heq
        rw [List.cons_prefix_cons, List.length_cons, List.drop_succ_cons]
        simpa using ih target
      · rename_i hne
        exact .inr ⟨fun h => hne (List.cons_prefix_cons.mp h).1, _, rfl⟩

/-- The text of the way from one path to another. -/
def relative (here target : AbsolutePath) : List Char :=
  ['/'].intercalate (relativeNames here.names target.names)

/-! ## First names -/

/-- A text up to its first separator. -/
def firstName (text : List Char) : List Char := text.takeWhile fun c => c ≠ '/'

theorem unseparated_all {name : List Char} (h : '/' ∉ name) :
    ∀ c ∈ name, decide (c ≠ '/') = true :=
  fun _ hc => decide_eq_true fun heq => h (heq ▸ hc)

theorem firstName_intercalate {name : List Char} (names : List (List Char)) (h : '/' ∉ name) :
    firstName (['/'].intercalate (name :: names)) = name := by
  have hall := unseparated_all h
  unfold firstName
  cases names with
  | nil => rw [List.intercalate_singleton, List.takeWhile_eq_self_iff.mpr hall]
  | cons name' names =>
    rw [List.intercalate_cons_cons, List.append_assoc, List.takeWhile_append_of_pos hall]
    simp

/-- A text that starts with a name is that name, or goes on behind a separator. -/
theorem firstName_eq_iff (text : List Char) {name : List Char} (h : '/' ∉ name) :
    firstName text = name ↔ text = name ∨ name ++ ['/'] <+: text := by
  have hall := unseparated_all h
  unfold firstName
  constructor
  · intro hfirst
    have hsplit := List.takeWhile_append_dropWhile (p := fun c => decide (c ≠ '/')) (l := text)
    rw [hfirst] at hsplit
    cases hrest : text.dropWhile (fun c => decide (c ≠ '/')) with
    | nil =>
      rw [hrest, List.append_nil] at hsplit
      exact .inl hsplit.symm
    | cons c rest =>
      have hc : c = '/' := by
        have hhead := List.head?_dropWhile_not (fun c => decide (c ≠ '/')) text
        rw [hrest] at hhead
        simpa using hhead
      rw [hrest, hc] at hsplit
      exact .inr ⟨rest, by rw [← hsplit, List.append_assoc]; rfl⟩
  · rintro (rfl | ⟨rest, rfl⟩)
    · exact List.takeWhile_eq_self_iff.mpr hall
    · rw [List.append_assoc, List.takeWhile_append_of_pos hall]
      simp

end AbsolutePath
