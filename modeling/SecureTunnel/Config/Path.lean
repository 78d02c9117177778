import Mathlib.Data.List.DropRight
import SecureTunnel.Config.Value

/-!
# Paths

A path as `std::path` and the system take it apart: the names it is walked by, and
the path of its parent, as text. The parent is walked by the same names without the
last (`names_parent`).
-/

namespace SecureTunnel

/-- A piece that leads nowhere: between two separators, or the dot. -/
def isBlank (piece : Text) : Bool := piece = [] ∨ piece = ['.']

/-- The names that a path is walked by. -/
def names (path : Text) : List Text := (pieces path).filter fun piece => !isBlank piece

def isAbsolute (path : Text) : Bool := path.head? = some '/'

/-- The path ends with a separator or a dot, so that only a directory is found by it. -/
def isSlashed (path : Text) : Bool := (pieces path).getLast?.any isBlank

/-- A dot comes after the last name, so that what is found there is searched as well. -/
def isDotted (path : Text) : Bool := ((pieces path).rtakeWhile isBlank).contains ['.']

/-- `Path::parent`, and the current directory where there is none, or an empty one. -/
def parent (path : Text) : Text :=
  match pieces path with
  | [] => ['.']
  | first :: rest =>
    match rest.rdropWhile isBlank with
    | [] => ['.']
    | body =>
      match first :: body.dropLast.rdropWhile isBlank with
      | [[]] => ['/']
      | ps => ['/'].intercalate ps

/-! ## Pieces -/

theorem pieces_ne_nil (path : Text) : pieces path ≠ [] := by
  cases path with
  | nil => exact List.cons_ne_nil _ _
  | cons c path =>
    rw [pieces]
    split
    · exact List.cons_ne_nil _ _
    split
    · exact List.cons_ne_nil _ _
    · exact List.cons_ne_nil _ _

theorem not_mem_of_mem_pieces {path piece : Text} (h : piece ∈ pieces path) : '/' ∉ piece := by
  induction path generalizing piece with
  | nil =>
    rw [List.mem_singleton.1 h]
    exact List.not_mem_nil
  | cons c path ih =>
    rw [pieces] at h
    split at h
    · obtain rfl | h := List.mem_cons.1 h
      · exact List.not_mem_nil
      · exact ih h
    rename_i hc
    split at h
    · rw [List.mem_singleton.1 h, List.mem_singleton]
      exact Ne.symm hc
    rename_i first rest heq
    obtain rfl | h := List.mem_cons.1 h
    · rw [List.mem_cons, not_or]
      exact ⟨Ne.symm hc, ih (heq ▸ List.mem_cons_self)⟩
    · exact ih (heq ▸ List.mem_cons_of_mem _ h)

theorem pieces_of_not_mem {piece : Text} (h : '/' ∉ piece) : pieces piece = [piece] := by
  induction piece with
  | nil => rfl
  | cons c piece ih =>
    obtain ⟨hc, h⟩ := not_or.1 (mt List.mem_cons.2 h)
    rw [pieces, if_neg (Ne.symm hc), ih h]

theorem pieces_append {piece : Text} (h : '/' ∉ piece) (path : Text) :
    pieces (piece ++ '/' :: path) = piece :: pieces path := by
  induction piece with
  | nil => rw [List.nil_append, pieces, if_pos rfl]
  | cons c piece ih =>
    obtain ⟨hc, h⟩ := not_or.1 (mt List.mem_cons.2 h)
    rw [List.cons_append, pieces, if_neg (Ne.symm hc), ih h]

/-- Pieces are what separators stand between. -/
theorem pieces_intercalate {ps : List Text} (h : ∀ piece ∈ ps, '/' ∉ piece) (hne : ps ≠ []) :
    pieces (['/'].intercalate ps) = ps := by
  induction ps with
  | nil => exact absurd rfl hne
  | cons piece ps ih =>
    obtain ⟨hpiece, hps⟩ := List.forall_mem_cons.1 h
    cases ps with
    | nil => rw [List.intercalate_singleton, pieces_of_not_mem hpiece]
    | cons piece' ps =>
      rw [List.intercalate_cons_cons, List.append_assoc, List.singleton_append,
        pieces_append hpiece, ih hps (List.cons_ne_nil _ _)]

/-- A path is absolute if its first piece is empty, and not its only one. -/
theorem isAbsolute_iff {path first : Text} {rest : List Text} (h : pieces path = first :: rest) :
    isAbsolute path = true ↔ first = [] ∧ rest ≠ [] := by
  cases path with
  | nil =>
    cases h
    exact ⟨nofun, fun h => absurd rfl h.2⟩
  | cons c path =>
    have habsolute : isAbsolute (c :: path) = true ↔ c = '/' := by
      rw [isAbsolute, List.head?_cons, decide_eq_true_iff, Option.some.injEq]
    rw [habsolute]
    rw [pieces] at h
    split at h
    · rename_i hc
      cases h
      exact ⟨fun _ => ⟨rfl, pieces_ne_nil path⟩, fun _ => hc⟩
    · rename_i hc
      split at h <;> cases h <;> exact ⟨fun heq => absurd heq hc, nofun⟩

theorem isDotted_of_not_isSlashed {path : Text} (h : isSlashed path = false) :
    isDotted path = false := by
  have hnil : (pieces path).rtakeWhile isBlank = [] := by
    rw [List.rtakeWhile_eq_nil_iff]
    intro hne hblank
    rw [isSlashed, List.getLast?_eq_some_getLast hne, Option.any_some, hblank] at h
    cases h
  rw [isDotted, hnil]
  rfl

/-! ## The parent -/

theorem filter_rdropWhile {α : Type*} (p : α → Bool) (l : List α) :
    (l.rdropWhile p).filter (fun a => !p a) = l.filter fun a => !p a := by
  induction l using List.reverseRecOn with
  | nil => rfl
  | append_singleton l a ih =>
    by_cases ha : p a = true
    · rw [List.rdropWhile_concat_pos p l a ha, ih, List.filter_append]
      simp [ha]
    · rw [List.rdropWhile_concat_neg p l a ha]

/-- The pieces of a parent: nothing but the first piece is left, or a last piece that
    is not blank is gone, and what was blank before it. -/
theorem parent_cases {path first : Text} {rest : List Text} (h : pieces path = first :: rest) :
    (rest.rdropWhile isBlank = [] ∧ parent path = ['.']) ∨
    ∃ init last, rest.rdropWhile isBlank = init ++ [last] ∧ isBlank last = false ∧
      ((first = [] ∧ init.rdropWhile isBlank = [] ∧ parent path = ['/']) ∨
        ((first ≠ [] ∨ init.rdropWhile isBlank ≠ []) ∧
          pieces (parent path) = first :: init.rdropWhile isBlank)) := by
  rw [parent, h]
  dsimp only
  split
  · rename_i hnil
    exact .inl ⟨hnil, rfl⟩
  rename_i hbody
  have hlast := List.dropLast_append_getLast hbody
  have hclear : ∀ piece ∈ first :: (rest.rdropWhile isBlank).dropLast.rdropWhile isBlank,
      '/' ∉ piece := by
    intro piece hmem
    suffices hpiece : piece ∈ pieces path from not_mem_of_mem_pieces hpiece
    rw [h]
    obtain rfl | hmem := List.mem_cons.1 hmem
    · exact List.mem_cons_self
    · have hpart := (List.rdropWhile_prefix isBlank _).trans
        ((List.dropLast_prefix _).trans (List.rdropWhile_prefix isBlank rest))
      exact List.mem_cons_of_mem _ (hpart.subset hmem)
  refine .inr ⟨_, _, hlast.symm, Bool.eq_false_iff.2 (List.rdropWhile_last_not _ _ hbody), ?_⟩
  split
  · rename_i hps
    obtain ⟨hfirst, hinit⟩ := List.cons.inj hps
    exact .inl ⟨hfirst, hinit, rfl⟩
  · rename_i hps
    refine .inr ⟨?_, pieces_intercalate hclear (List.cons_ne_nil _ _)⟩
    by_contra hboth
    obtain ⟨hfirst, hinit⟩ := not_or.1 hboth
    exact hps (congrArg₂ _ (not_not.1 hfirst) (not_not.1 hinit))

/-- The parent is walked by the same names, but for the last. -/
theorem names_parent (path : Text) : names (parent path) = (names path).dropLast := by
  obtain ⟨first, rest, h⟩ := List.exists_cons_of_ne_nil (pieces_ne_nil path)
  have hnames : names path = (first :: rest.rdropWhile isBlank).filter (fun p => !isBlank p) := by
    rw [names, h, List.filter_cons, List.filter_cons, filter_rdropWhile]
  rw [hnames]
  obtain ⟨hrest, hparent⟩ | ⟨init, last, hbody, hlast, hparent⟩ := parent_cases h
  · rw [hparent, hrest, List.filter_cons]
    split <;> rfl
  · rw [hbody, ← List.cons_append, List.filter_append, List.filter_singleton, hlast]
    have hdrop : names (parent path) = (first :: init).filter fun p => !isBlank p := by
      rw [List.filter_cons, ← filter_rdropWhile]
      obtain ⟨rfl, hinit, hparent⟩ | ⟨-, hparent⟩ := hparent
      · rw [hparent, hinit]
        rfl
      · rw [names, hparent, List.filter_cons]
    rw [hdrop]
    exact List.dropLast_concat.symm

/-- And it is absolute if the path is, and has a name. -/
theorem isAbsolute_parent (path : Text) :
    isAbsolute (parent path) = (isAbsolute path && !(names path).isEmpty) := by
  obtain ⟨first, rest, h⟩ := List.exists_cons_of_ne_nil (pieces_ne_nil path)
  rw [Bool.eq_iff_iff, Bool.and_eq_true, isAbsolute_iff h, Bool.not_eq_true',
    List.isEmpty_eq_false_iff]
  obtain ⟨hrest, hparent⟩ | ⟨init, last, hbody, hlast, hparent⟩ := parent_cases h
  · -- There is no name but the first, and that is none if the path is absolute.
    rw [hparent]
    refine ⟨nofun, ?_⟩
    rintro ⟨⟨rfl, -⟩, hnames⟩
    have hnil : names path = [] := by
      rw [names, h, List.filter_cons, ← filter_rdropWhile, hrest]
      rfl
    exact absurd hnil hnames
  have hrest : rest ≠ [] := by
    rintro rfl
    exact List.cons_ne_nil _ _ (List.append_eq_nil_iff.1 hbody.symm).2
  have hnames : names path ≠ [] := by
    refine List.ne_nil_of_mem (a := last) (List.mem_filter.2 ⟨?_, by rw [hlast]; rfl⟩)
    have hmem : last ∈ rest.rdropWhile isBlank := hbody ▸ List.mem_append_right _ (.head _)
    exact h ▸ List.mem_cons_of_mem _ ((List.rdropWhile_prefix _ _).subset hmem)
  obtain ⟨rfl, -, hparent⟩ | ⟨hsome, hparent⟩ := hparent
  · rw [hparent]
    exact ⟨fun _ => ⟨⟨rfl, hrest⟩, hnames⟩, fun _ => rfl⟩
  · rw [isAbsolute_iff hparent]
    exact ⟨fun hfirst => ⟨⟨hfirst.1, hrest⟩, hnames⟩,
      fun hfirst => ⟨hfirst.1.1, hsome.resolve_left (not_not.2 hfirst.1.1)⟩⟩

end SecureTunnel
