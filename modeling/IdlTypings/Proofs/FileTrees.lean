import Mathlib
import IdlTypings.Files.Tree

/-! # File trees under their operations

A tree is looked at by location, through `get?`.  These laws say what each operation does to that
view, so that the proofs about runs never look at the list of nodes.

* `follow_eq_ok_iff`: a piece can be followed from a directory only, and leads where `enter` says.
* `KeepsDirectories`: a tree may lose files, but no directory.  A path that could be followed before
  leads to the same location afterwards, `KeepsDirectories.locate`.
* `Grows`: directories are made where nothing stood, and all else stays.
* `makeAll_grows` and `writeBytes_ok` say what the writing operations do.
* `Path.parent?_cases` says what the parent of a path is, and `Path.Above` relates a path to the
  directories that it names on its way.  A path that can be followed passes through directories only,
  `isDirectory_above`.
-/

namespace IdlTypings

/-! ## Pieces of paths -/

namespace Path

theorem splitSlashes_ne_nil (s : List Char) : splitSlashes s ≠ [] := by
  cases s with
  | nil => simp [splitSlashes]
  | cons c s =>
    rw [splitSlashes]
    split
    · simp
    · split <;> simp

theorem splitSlashes_slash (s : List Char) : splitSlashes ('/' :: s) = [] :: splitSlashes s := by
  rw [splitSlashes, if_pos (by decide)]

theorem splitSlashes_cons {c : Char} (other : c ≠ '/') (s : List Char) :
    ∃ name names, splitSlashes s = name :: names ∧
      splitSlashes (c :: s) = (c :: name) :: names := by
  cases rest : splitSlashes s with
  | nil => exact absurd rest (splitSlashes_ne_nil s)
  | cons name names =>
    refine ⟨name, names, rfl, ?_⟩
    rw [splitSlashes, rest, if_neg (by simpa using other)]

/-- A text is split at a slash in it into the pieces on either side. -/
theorem splitSlashes_append_slash (s t : List Char) :
    splitSlashes (s ++ '/' :: t) = splitSlashes s ++ splitSlashes t := by
  induction s with
  | nil => exact splitSlashes_slash t
  | cons c s ih =>
    by_cases slash : c = '/'
    · subst slash
      rw [List.cons_append, splitSlashes_slash, splitSlashes_slash, ih, List.cons_append]
    · obtain ⟨name, names, rest, split⟩ := splitSlashes_cons slash s
      obtain ⟨name', names', rest', split'⟩ := splitSlashes_cons slash (s ++ '/' :: t)
      rw [ih, rest, List.cons_append, List.cons.injEq] at rest'
      rw [List.cons_append, split', split, ← rest'.1, ← rest'.2, List.cons_append]

/-- Slashes at the end of a text add empty pieces. -/
theorem splitSlashes_append {slashes : List Char} (all : ∀ c ∈ slashes, c = '/') (s : List Char) :
    splitSlashes (s ++ slashes) = splitSlashes s ++ slashes.map fun _ => [] := by
  induction slashes generalizing s with
  | nil => rw [List.append_nil, List.map_nil, List.append_nil]
  | cons c slashes ih =>
    rw [List.forall_mem_cons] at all
    obtain ⟨rfl, others⟩ := all
    have rest : splitSlashes slashes = [] :: slashes.map fun _ => [] := ih others []
    rw [splitSlashes_append_slash, rest, List.map_cons]

theorem slash_not_mem_pieces (s : List Char) : ∀ name ∈ splitSlashes s, '/' ∉ name := by
  induction s with
  | nil => simp [splitSlashes]
  | cons c s ih =>
    by_cases slash : c = '/'
    · subst slash
      rw [splitSlashes_slash]
      simpa using ih
    · obtain ⟨name, names, rest, split⟩ := splitSlashes_cons slash s
      rw [rest, List.forall_mem_cons] at ih
      rw [split, List.forall_mem_cons]
      exact ⟨by simp [Ne.symm slash, ih.1], ih.2⟩

theorem splitSlashes_name {name : Name} (plain : '/' ∉ name) (s : List Char) :
    splitSlashes (name ++ '/' :: s) = name :: splitSlashes s ∧ splitSlashes name = [name] := by
  induction name with
  | nil => exact ⟨splitSlashes_slash s, rfl⟩
  | cons c name ih =>
    simp only [List.mem_cons, not_or] at plain
    obtain ⟨name', names', rest', split'⟩ := splitSlashes_cons (Ne.symm plain.1) (name ++ '/' :: s)
    obtain ⟨name'', names'', rest'', split''⟩ := splitSlashes_cons (Ne.symm plain.1) name
    rw [(ih plain.2).1, List.cons.injEq] at rest'
    rw [(ih plain.2).2, List.cons.injEq] at rest''
    rw [List.cons_append, split', split'', ← rest'.1, ← rest'.2, ← rest''.1, ← rest''.2]
    exact ⟨rfl, rfl⟩

/-- Pieces without slashes are the pieces of what they spell. -/
theorem splitSlashes_joinSlashes {names : List Name} (nonempty : names ≠ [])
    (plain : ∀ name ∈ names, '/' ∉ name) : splitSlashes (joinSlashes names) = names := by
  induction names with
  | nil => exact absurd rfl nonempty
  | cons name names ih =>
    rw [List.forall_mem_cons] at plain
    cases names with
    | nil => exact (splitSlashes_name plain.1 []).2
    | cons next names =>
      rw [joinSlashes, (splitSlashes_name plain.1 _).1, ih (by simp) plain.2]
      simp

theorem isAbsolute_of_pieces {p : Path} {names : List Name} (pieces : p.pieces = [] :: names)
    (nonempty : p.chars ≠ []) : p.isAbsolute = true := by
  cases chars : p.chars with
  | nil => exact absurd chars nonempty
  | cons c s =>
    by_cases slash : c = '/'
    · simp [isAbsolute, chars, slash]
    · obtain ⟨name, names', -, split⟩ := splitSlashes_cons slash s
      rw [Path.pieces, chars, split] at pieces
      simp at pieces

theorem pieces_of_isAbsolute {p : Path} (absolute : p.isAbsolute = true) :
    ∃ names, p.pieces = [] :: names := by
  cases chars : p.chars with
  | nil => simp [isAbsolute, chars] at absolute
  | cons c s =>
    obtain rfl : c = '/' := by simpa [isAbsolute, chars] using absolute
    exact ⟨splitSlashes s, by rw [Path.pieces, chars, splitSlashes_slash]⟩

/-- A path is followed from the working directory if its first piece is not empty. -/
theorem relative_iff {p : Path} :
    (p.chars ≠ [] ∧ p.isAbsolute = false) ↔ p.pieces.head? ≠ some [] := by
  constructor
  · rintro ⟨nonempty, relative⟩ first
    obtain ⟨names, pieces⟩ := List.head?_eq_some_iff.1 first
    rw [isAbsolute_of_pieces pieces nonempty] at relative
    cases relative
  · intro first
    refine ⟨fun empty => first (by rw [pieces, empty]; rfl), ?_⟩
    cases absolute : p.isAbsolute with
    | false => rfl
    | true =>
      obtain ⟨names, pieces⟩ := pieces_of_isAbsolute absolute
      exact absurd (by rw [pieces]; rfl) first

theorem head?_of_prefix {p : Path} {names : List Name} (within : p.pieces <+: names) :
    p.pieces.head? = names.head? := by
  obtain ⟨rest, rfl⟩ := within
  exact (List.head?_append_of_ne_nil _ (splitSlashes_ne_nil p.chars)).symm

/-! ## Parents -/

/-- A piece that leads nowhere. -/
def Idle (piece : Name) : Prop :=
  piece = [] ∨ piece = ['.']

theorem dropIdle_suffix (names : List Name) :
    ∃ idle, (∀ piece ∈ idle, Idle piece) ∧ names = idle ++ dropIdle names := by
  fun_induction dropIdle names with
  | case1 => exact ⟨[], by simp, rfl⟩
  | case2 first => exact ⟨[], by simp, rfl⟩
  | case3 name names _ isIdle ih =>
    obtain ⟨idle, all, parts⟩ := ih
    have first : Idle name := by simpa [Idle] using isIdle
    exact ⟨name :: idle, List.forall_mem_cons.2 ⟨first, all⟩, by rw [List.cons_append, ← parts]⟩
  | case4 name names => exact ⟨[], by simp, rfl⟩

theorem dropIdle_ne_nil {names : List Name} (nonempty : names ≠ []) : dropIdle names ≠ [] := by
  fun_induction dropIdle names with
  | case1 => exact absurd rfl nonempty
  | case2 first => simp
  | case3 name names more _ ih => exact ih (by rintro rfl; exact more rfl)
  | case4 name names => simp

theorem dropIdle_dropIdle (names : List Name) : dropIdle (dropIdle names) = dropIdle names := by
  fun_induction dropIdle names with
  | case1 => rfl
  | case2 first => rfl
  | case3 _ _ _ _ ih => exact ih
  | case4 name names more busy =>
    rw [dropIdle, if_neg busy]
    exact more

theorem dropIdle_ordinary {name : Name} (ordinary : Ordinary name) (names : List Name) :
    dropIdle (name :: names) = name :: names := by
  cases names with
  | nil => rfl
  | cons next names => simp [dropIdle, ordinary.1, ordinary.2.1]

theorem ofReversed_of_ne {names : List Name} (other : names ≠ [[]]) :
    ofReversed names = ⟨joinSlashes names.reverse⟩ := by
  rw [ofReversed]
  exact other

theorem ofReversed_chars_ne_nil {names : List Name} (nonempty : names ≠ []) :
    (ofReversed names).chars ≠ [] := by
  by_cases root : names = [[]]
  · rw [root]
    exact List.cons_ne_nil _ _
  · rw [ofReversed_of_ne root]
    cases forward : names.reverse with
    | nil => exact absurd (List.reverse_eq_nil_iff.1 forward) nonempty
    | cons name others =>
      cases others with
      | nil =>
        rintro rfl
        exact root (by simpa using congrArg List.reverse forward)
      | cons next others => simp [joinSlashes]

/-- The pieces of a path without those at its end that lead nowhere. -/
def busyPieces (p : Path) : List Name :=
  (dropIdle p.pieces.reverse).reverse

theorem pieces_eq_busyPieces (p : Path) :
    ∃ idle, (∀ piece ∈ idle, Idle piece) ∧ p.pieces = p.busyPieces ++ idle := by
  obtain ⟨idle, all, parts⟩ := dropIdle_suffix p.pieces.reverse
  refine ⟨idle.reverse, by simpa using all, ?_⟩
  rw [busyPieces, ← List.reverse_append, ← parts, List.reverse_reverse]

/-- The parent of a path that does not begin at the root.  It is empty for a single piece.  Otherwise
    it ends in a piece that leads somewhere; the path has pieces that lead nowhere behind it, and one
    more. -/
theorem parent?_cases {p : Path} (relative : p.pieces.head? ≠ some []) :
    (p.parent? = some ⟨[]⟩ ∧ ∃ name, p.busyPieces = [name]) ∨
      ∃ q between name, p.parent? = some q ∧ q.chars ≠ [] ∧ q.busyPieces = q.pieces ∧
        (∀ piece ∈ between, Idle piece) ∧ p.busyPieces = q.pieces ++ between ++ [name] := by
  obtain ⟨rest, -, whole⟩ := pieces_eq_busyPieces p
  rw [parent?]
  split
  case h_1 empty =>
    refine absurd empty (dropIdle_ne_nil ?_)
    rw [ne_eq, List.reverse_eq_nil_iff]
    exact splitSlashes_ne_nil p.chars
  case h_2 first last =>
    have busy : p.busyPieces = [first] := by rw [busyPieces, last, List.reverse_singleton]
    have nonempty : first ≠ [] := by
      rintro rfl
      exact relative (by rw [whole, busy]; rfl)
    exact .inl ⟨if_neg (by simpa using nonempty), first, busy⟩
  case h_3 name names single last =>
    obtain ⟨idle, all, parts⟩ := dropIdle_suffix names
    have some_names : names ≠ [] := by
      rintro rfl
      exact single rfl
    have busy : p.busyPieces = (dropIdle names).reverse ++ idle.reverse ++ [name] := by
      rw [busyPieces, last, List.reverse_cons, ← List.reverse_append, ← parts]
    -- The parent is spelled from its pieces except at the root, where a single empty piece is left.
    have below_root : dropIdle names ≠ [[]] := by
      intro root
      exact relative (by rw [whole, busy, root]; rfl)
    have pieces : (ofReversed (dropIdle names)).pieces = (dropIdle names).reverse := by
      rw [ofReversed_of_ne below_root]
      apply splitSlashes_joinSlashes
      · simpa using dropIdle_ne_nil some_names
      · intro piece among
        apply slash_not_mem_pieces p.chars piece
        rw [← Path.pieces, whole, busy]
        simp only [List.mem_append]
        exact .inl (.inl (.inl among))
    refine .inr ⟨_, idle.reverse, name, rfl, ofReversed_chars_ne_nil (dropIdle_ne_nil some_names),
      ?_, by simpa using all, by rw [busy, pieces]⟩
    rw [busyPieces, pieces, List.reverse_reverse, dropIdle_dropIdle]

/-- A path that does not begin at the root has all pieces of its parent and more. -/
theorem pieces_parent {p q : Path} (parent : p.parent? = some q) (nonempty : q.chars ≠ [])
    (relative : p.pieces.head? ≠ some []) :
    ∃ name names, p.pieces = q.pieces ++ name :: names := by
  obtain ⟨idle, -, whole⟩ := pieces_eq_busyPieces p
  rcases parent?_cases relative with ⟨empty, -⟩ | ⟨q', between, name, parent', -, -, -, busy⟩
  · rw [parent] at empty
    cases empty
    exact absurd rfl nonempty
  · rw [parent] at parent'
    cases parent'
    rw [whole, busy, List.append_assoc, List.append_assoc]
    cases between with
    | nil => exact ⟨name, idle, rfl⟩
    | cons first others => exact ⟨first, _, rfl⟩

/-- A path lies below its parent, and below what its parent lies below.  The empty path stands for
    the working directory and is left out. -/
inductive Above : Path → Path → Prop
  | parent {p q : Path} : p.parent? = some q → q.chars ≠ [] → Above q p
  | further {p q r : Path} : q.parent? = some r → r.chars ≠ [] → Above q p → Above r p

theorem above_of_mem_ancestorsUpTo {p : Path} {n : Nat} {q r : Path} (above : Above q p)
    (among : r ∈ ancestorsUpTo n q) : Above r p := by
  induction n generalizing q with
  | zero => cases among
  | succ n ih =>
    rw [ancestorsUpTo] at among
    split at among
    · cases among
    · split at among
      · rw [List.mem_singleton] at among
        exact among ▸ above
      case h_2 next parent =>
        rcases List.mem_cons.1 among with rfl | among
        · exact above
        -- The list ends before an empty parent, so such a parent has no part in it.
        · by_cases empty : next.chars = []
          · cases n <;> simp [ancestorsUpTo, empty] at among
          · exact ih (.further parent empty above) among

/-! ## Slashes at the end -/

theorem chars_eq_trimSlashes (p : Path) :
    ∃ slashes, (∀ c ∈ slashes, c = '/') ∧ p.chars = p.trimSlashes.chars ++ slashes := by
  refine ⟨(p.chars.reverse.takeWhile (· == '/')).reverse, ?_, ?_⟩
  · intro c among
    simpa using List.mem_takeWhile_imp (List.mem_reverse.1 among)
  · rw [trimSlashes, ← List.reverse_append, List.takeWhile_append_dropWhile, List.reverse_reverse]

theorem trimSlashes_of_not_endsInSlash {p : Path} (solid : p.endsInSlash = false) :
    p.trimSlashes = p := by
  obtain ⟨slashes, all, parts⟩ := chars_eq_trimSlashes p
  rcases List.eq_nil_or_concat slashes with rfl | ⟨front, c, rfl⟩
  · rw [List.append_nil] at parts
    exact congrArg Path.mk parts.symm
  · obtain rfl : c = '/' := all c (by simp)
    simp [endsInSlash, parts] at solid

end Path

/-! ## Locations of a tree -/

namespace FileTree

variable {tree before after : FileTree} {node : FileNode}

theorem get?_set_same {l : Location} (inside : l ≠ []) :
    (tree.set l node).get? l = some node := by
  cases l with
  | nil => exact absurd rfl inside
  | cons name names => simp [set, get?]

theorem lookup_filter_other {l l' : Location} (other : l' ≠ l) (nodes : List (Location × FileNode)) :
    (nodes.filter (·.1 != l)).lookup l' = nodes.lookup l' := by
  induction nodes with
  | nil => rfl
  | cons entry nodes ih =>
    obtain ⟨place, node⟩ := entry
    by_cases here : place = l
    · subst here
      simp [List.lookup_cons, ih, beq_false_of_ne other]
    · simp [List.lookup_cons, ih, here]

theorem get?_set_other {l l' : Location} (other : l' ≠ l) :
    (tree.set l node).get? l' = tree.get? l' := by
  cases l' with
  | nil => rfl
  | cons name names =>
    simp only [set, get?, List.lookup_cons, beq_false_of_ne other]
    exact lookup_filter_other other tree.nodes

theorem location_ne_nil {l : Location} (free : tree.get? l ≠ some .directory) : l ≠ [] := by
  rintro rfl
  exact free rfl

/-! ## Following paths -/

theorem bind_eq_ok {ε α β : Type} {x : Except ε α} {f : α → Except ε β} {b : β}
    (succeeds : (x >>= f) = .ok b) : ∃ a, x = .ok a ∧ f a = .ok b := by
  cases x with
  | error e => cases succeeds
  | ok a => exact ⟨a, rfl, succeeds⟩

/-- Where a piece leads from a directory: it stays, it goes up, or it enters a name. -/
def enter (l : Location) (piece : Path.Name) : Location :=
  if piece = [] ∨ piece = ['.'] then l
  else if piece = ['.', '.'] then l.dropLast
  else l ++ [piece]

theorem enter_idle {piece : Path.Name} (idle : Path.Idle piece) (l : Location) :
    enter l piece = l :=
  if_pos idle

theorem enter_up (l : Location) : enter l ['.', '.'] = l.dropLast :=
  rfl

theorem enter_ordinary {name : Path.Name} (ordinary : Path.Ordinary name) (l : Location) :
    enter l name = l ++ [name] := by
  simp [enter, ordinary.1, ordinary.2.1, ordinary.2.2]

theorem follow_of_directory {l : Location} (directory : tree.get? l = some .directory)
    (piece : Path.Name) : tree.follow l piece = .ok (enter l piece) := by
  rw [follow, directory]
  simp only [Bool.or_eq_true, beq_iff_eq, enter]
  split_ifs <;> rfl

theorem follow_eq_ok_iff {l l' : Location} {piece : Path.Name} :
    tree.follow l piece = .ok l' ↔ tree.get? l = some .directory ∧ l' = enter l piece := by
  constructor
  · intro follows
    have directory : tree.get? l = some .directory := by
      rw [follow] at follows
      split at follows
      · cases follows
      · cases follows
      · assumption
    rw [follow_of_directory directory] at follows
    cases follows
    exact ⟨directory, rfl⟩
  · rintro ⟨directory, rfl⟩
    exact follow_of_directory directory piece

/-- Pieces that lead nowhere change nothing where a directory stands. -/
theorem followAll_idle {l : Location} (directory : tree.get? l = some .directory)
    {idle : List Path.Name} (all : ∀ piece ∈ idle, Path.Idle piece) :
    idle.foldlM tree.follow l = .ok l := by
  induction idle with
  | nil => rfl
  | cons piece idle ih =>
    rw [List.forall_mem_cons] at all
    rw [List.foldlM_cons, follow_of_directory directory, enter_idle all.1]
    exact ih all.2

/-- Every directory of one tree is a directory of the other. -/
def KeepsDirectories (before after : FileTree) : Prop :=
  ∀ l, before.get? l = some .directory → after.get? l = some .directory

theorem KeepsDirectories.followAll (keeps : KeepsDirectories before after) {pieces : List Path.Name}
    {l l' : Location} (follows : pieces.foldlM before.follow l = .ok l') :
    pieces.foldlM after.follow l = .ok l' := by
  induction pieces generalizing l with
  | nil => exact follows
  | cons piece pieces ih =>
    rw [List.foldlM_cons] at follows ⊢
    obtain ⟨next, step, rest⟩ := bind_eq_ok follows
    obtain ⟨directory, rfl⟩ := follow_eq_ok_iff.1 step
    rw [follow_of_directory (keeps l directory)]
    exact ih rest

theorem locate_eq_ok_iff {path : Path} {l : Location} :
    tree.locate path = .ok l ↔
      path.chars ≠ [] ∧ path.isAbsolute = false ∧ path.pieces.foldlM tree.follow [] = .ok l := by
  rw [locate]
  split
  case isTrue refused =>
    simp only [Bool.or_eq_true, List.isEmpty_iff] at refused
    constructor
    · intro located
      cases located
    · rintro ⟨nonempty, relative, -⟩
      rcases refused with empty | absolute
      · exact absurd empty nonempty
      · rw [relative] at absolute
        cases absolute
  case isFalse accepted =>
    simp only [Bool.or_eq_true, List.isEmpty_iff, not_or, Bool.not_eq_true] at accepted
    exact ⟨fun located => ⟨accepted.1, accepted.2, located⟩, fun ⟨_, _, located⟩ => located⟩

theorem locate_eq_ok_iff_pieces {path : Path} {l : Location} :
    tree.locate path = .ok l ↔
      path.pieces.head? ≠ some [] ∧ path.pieces.foldlM tree.follow [] = .ok l := by
  rw [locate_eq_ok_iff, ← Path.relative_iff, and_assoc]

/-- A path whose last piece is not empty leads where that piece leads from the directory that the
    others lead to. -/
theorem locate_last {path : Path} {l : Location} {front : List Path.Name} {name : Path.Name}
    (pieces : path.pieces = front ++ [name]) (nonempty : name ≠ []) :
    tree.locate path = .ok l ↔ front.head? ≠ some [] ∧
      ∃ directory, front.foldlM tree.follow [] = .ok directory ∧ tree.follow directory name = .ok l := by
  have heads : (front ++ [name]).head? ≠ some [] ↔ front.head? ≠ some [] := by
    cases front <;> simp [nonempty]
  rw [locate_eq_ok_iff_pieces, pieces, heads, List.foldlM_append]
  refine and_congr_right fun _ => ⟨fun follows => ?_, ?_⟩
  · obtain ⟨directory, before, last⟩ := bind_eq_ok follows
    exact ⟨directory, before, by simpa using last⟩
  · rintro ⟨directory, before, last⟩
    rw [before]
    change [name].foldlM tree.follow directory = _
    simpa using last

theorem KeepsDirectories.locate (keeps : KeepsDirectories before after) {path : Path} {l : Location}
    (located : before.locate path = .ok l) : after.locate path = .ok l := by
  rw [locate_eq_ok_iff] at located ⊢
  exact ⟨located.1, located.2.1, keeps.followAll located.2.2⟩

theorem find_eq_ok_iff {path : Path} :
    tree.find path = .ok node ↔ ∃ l, tree.locate path = .ok l ∧ tree.get? l = some node := by
  rw [find]
  constructor
  · intro found
    obtain ⟨l, located, rest⟩ := bind_eq_ok found
    refine ⟨l, located, ?_⟩
    split at rest
    · cases rest
      assumption
    · cases rest
  · rintro ⟨l, located, stands⟩
    rw [located]
    simp only [bind, Except.bind, stands]
    rfl

theorem readBytes_eq_ok_iff {path : Path} {bytes : ByteArray} :
    tree.readBytes path = .ok bytes ↔
      ∃ l, tree.locate path = .ok l ∧ tree.get? l = some (.file bytes) := by
  rw [← find_eq_ok_iff, readBytes]
  constructor
  · intro read
    obtain ⟨node, found, rest⟩ := bind_eq_ok read
    cases node with
    | file content =>
      cases rest
      exact found
    | directory => cases rest
  · intro found
    rw [found]
    rfl

/-- Two trees agree on a file if its path leads to the same location, where both have the same. -/
theorem readBytes_congr {path : Path} {l : Location} (located : before.locate path = .ok l)
    (located' : after.locate path = .ok l) (same : after.get? l = before.get? l) :
    after.readBytes path = before.readBytes path := by
  rw [readBytes, readBytes, find, find, located, located']
  simp only [bind, Except.bind, same]

theorem isPresent_of_readBytes {path : Path} {bytes : ByteArray}
    (read : tree.readBytes path = .ok bytes) : tree.isPresent path = true := by
  rw [readBytes_eq_ok_iff, ← find_eq_ok_iff] at read
  rw [isPresent, read]
  rfl

theorem isDirectory_iff {path : Path} :
    tree.isDirectory path = true ↔
      ∃ l, tree.locate path = .ok l ∧ tree.get? l = some .directory := by
  rw [← find_eq_ok_iff, isDirectory]
  split
  · simp_all
  case h_2 other => simpa using other

/-- Slashes at the end change nothing where a directory stands. -/
theorem locate_of_trimSlashes {path : Path} {l : Location}
    (located : tree.locate path.trimSlashes = .ok l) (directory : tree.get? l = some .directory) :
    tree.locate path = .ok l := by
  obtain ⟨slashes, all, parts⟩ := Path.chars_eq_trimSlashes path
  obtain ⟨nonempty, relative, follows⟩ := locate_eq_ok_iff.1 located
  -- Each slash adds an empty piece, and an empty piece stays where it is.
  have idle : ∀ piece ∈ slashes.map fun _ => ([] : Path.Name), Path.Idle piece := by
    simp [Path.Idle]
  refine locate_eq_ok_iff.2 ⟨?_, ?_, ?_⟩
  · rw [parts]
    exact List.append_ne_nil_of_left_ne_nil nonempty slashes
  · rw [Path.isAbsolute, parts, List.head?_append_of_ne_nil _ nonempty]
    exact relative
  · rw [Path.pieces, parts, Path.splitSlashes_append all, List.foldlM_append]
    rw [Path.pieces] at follows
    rw [follows]
    exact followAll_idle directory idle

theorem isDirectory_parent {p q : Path} {l : Location} (parent : p.parent? = some q)
    (nonempty : q.chars ≠ []) (located : tree.locate p = .ok l) : tree.isDirectory q = true := by
  obtain ⟨relative, follows⟩ := locate_eq_ok_iff_pieces.1 located
  obtain ⟨name, names, parts⟩ := Path.pieces_parent parent nonempty relative
  rw [← Path.head?_of_prefix ⟨_, parts.symm⟩] at relative
  rw [parts, List.foldlM_append] at follows
  obtain ⟨middle, front, rest⟩ := bind_eq_ok follows
  rw [List.foldlM_cons] at rest
  obtain ⟨next, step, -⟩ := bind_eq_ok rest
  exact isDirectory_iff.2 ⟨middle, locate_eq_ok_iff_pieces.2 ⟨relative, front⟩,
    (follow_eq_ok_iff.1 step).1⟩

/-- A path that can be followed passes through directories only. -/
theorem isDirectory_above {p q : Path} {l : Location} (located : tree.locate p = .ok l)
    (above : q.Above p) : tree.isDirectory q = true := by
  induction above with
  | parent parent nonempty => exact isDirectory_parent parent nonempty located
  | further parent nonempty _ ih =>
    obtain ⟨middle, located', -⟩ := isDirectory_iff.1 (ih located)
    exact isDirectory_parent parent nonempty located'

/-! ## Directories made -/

/-- Directories are made, at some locations where nothing stood, and all else stays as it was. -/
def Grows (made : Location → Prop) (before after : FileTree) : Prop :=
  ∀ l, after.get? l = before.get? l ∨
    before.get? l = none ∧ after.get? l = some .directory ∧ made l

variable {made : Location → Prop}

theorem Grows.refl (made : Location → Prop) (tree : FileTree) : Grows made tree tree :=
  fun _ => .inl rfl

theorem Grows.mono {wider : Location → Prop} (grows : Grows made before after)
    (widens : ∀ l, made l → wider l) : Grows wider before after := by
  intro l
  rcases grows l with same | ⟨free, directory, here⟩
  · exact .inl same
  · exact .inr ⟨free, directory, widens l here⟩

theorem Grows.trans {middle : FileTree} (first : Grows made before middle)
    (second : Grows made middle after) : Grows made before after := by
  intro l
  rcases second l with same | ⟨free, directory, here⟩
  · rw [same]
    exact first l
  · rcases first l with same | ⟨_, directory', _⟩
    · exact .inr ⟨same ▸ free, directory, here⟩
    · rw [free] at directory'
      cases directory'

theorem Grows.keepsDirectories (grows : Grows made before after) : KeepsDirectories before after := by
  intro l directory
  rcases grows l with same | ⟨_, directory', _⟩
  · rw [same, directory]
  · exact directory'

/-- The same files with the same bytes. -/
def SameFiles (before after : FileTree) : Prop :=
  ∀ l bytes, after.get? l = some (.file bytes) ↔ before.get? l = some (.file bytes)

theorem Grows.sameFiles (grows : Grows made before after) : SameFiles before after := by
  intro l bytes
  rcases grows l with same | ⟨free, directory, _⟩
  · rw [same]
  · rw [free, directory]
    simp

theorem makeDirectory_ok {path : Path} (makes : tree.makeDirectory path = .ok after) :
    ∃ l, tree.locate path.trimSlashes = .ok l ∧ tree.get? l = none ∧
      after = tree.set l .directory := by
  obtain ⟨l, located, rest⟩ := bind_eq_ok makes
  refine ⟨l, located, ?_⟩
  split at rest
  · cases rest
  case h_2 free =>
    cases rest
    exact ⟨free, rfl⟩

theorem ensureDirectory_grows {path : Path} (makes : tree.ensureDirectory path = .ok after) :
    Grows (fun l => after.locate path = .ok l) tree after := by
  rw [ensureDirectory] at makes
  split at makes
  case h_1 made =>
    cases makes
    obtain ⟨l, located, free, rfl⟩ := makeDirectory_ok made
    have inside : l ≠ [] := location_ne_nil (by rw [free]; simp)
    have new : (tree.set l .directory).get? l = some .directory := get?_set_same inside
    -- Directories stay, so the path still leads to the same place.
    have keeps : KeepsDirectories tree (tree.set l .directory) := by
      intro l' directory
      by_cases here : l' = l
      · exact here ▸ new
      · rwa [get?_set_other here]
    intro l'
    by_cases here : l' = l
    · subst here
      exact .inr ⟨free, new, locate_of_trimSlashes (keeps.locate located) new⟩
    · exact .inl (get?_set_other here)
  case h_2 =>
    split at makes
    case isTrue =>
      cases makes
      exact Grows.refl _ tree
    case isFalse => cases makes

/-- Nothing is made where a directory stands. -/
theorem ensureDirectory_of_isDirectory {path : Path} (stands : tree.isDirectory path = true) :
    tree.ensureDirectory path = .ok tree := by
  rw [ensureDirectory]
  split
  case h_1 made =>
    exfalso
    obtain ⟨l, located, free, -⟩ := makeDirectory_ok made
    obtain ⟨l', located', directory⟩ := isDirectory_iff.1 stands
    obtain ⟨slashes, all, parts⟩ := Path.chars_eq_trimSlashes path
    obtain ⟨-, -, follows⟩ := locate_eq_ok_iff.1 located
    obtain ⟨-, -, follows'⟩ := locate_eq_ok_iff.1 located'
    rw [Path.pieces, parts, Path.splitSlashes_append all, List.foldlM_append, ← Path.pieces,
      follows] at follows'
    -- Without slashes both paths lead to the directory; a slash can be followed only from one.
    cases slashes with
    | nil =>
      obtain rfl : l = l' := by simpa using follows'
      rw [directory] at free
      cases free
    | cons c slashes =>
      obtain ⟨next, step, -⟩ := bind_eq_ok (x := tree.follow l []) follows'
      rw [(follow_eq_ok_iff.1 step).1] at free
      cases free
  case h_2 => rw [if_pos stands]

/-- Each directory that is made stands at one of the paths, whether or not the first can be made. -/
theorem makeAll_grows (tree : FileTree) (paths : List Path) :
    Grows (fun l => ∃ q ∈ paths, (tree.makeAll paths).2.locate q = .ok l) tree
      (tree.makeAll paths).2 := by
  induction paths with
  | nil => exact Grows.refl _ tree
  | cons path parents ih =>
    rw [makeAll]
    split
    case h_1 made =>
      exact (ensureDirectory_grows made).mono fun l located => ⟨path, by simp, located⟩
    case h_2 =>
      -- The parents come first; what they grow to is then grown by the path itself.
      have above : Grows
          (fun l => ∃ q ∈ path :: parents, (tree.makeAll parents).2.locate q = .ok l) tree
          (tree.makeAll parents).2 := by
        apply ih.mono
        rintro l ⟨q, among, located⟩
        exact ⟨q, List.mem_cons_of_mem path among, located⟩
      split
      case h_1 failed =>
        rw [failed] at above
        exact above
      case h_2 middle made =>
        rw [made] at above
        split
        case h_1 made' =>
          have grows := ensureDirectory_grows made'
          refine (above.mono ?_).trans (grows.mono ?_)
          · rintro l ⟨q, among, located⟩
            exact ⟨q, among, grows.keepsDirectories.locate located⟩
          · intro l located
            exact ⟨path, by simp, located⟩
        case h_2 => exact above
    case h_3 => exact Grows.refl _ tree

/-! ## Files written -/

/-- A file that can be written stands where its path leads, and nothing else has changed. -/
theorem writeBytes_ok {path : Path} {bytes : ByteArray}
    (writes : tree.writeBytes path bytes = .ok after) :
    ∃ l, tree.locate path = .ok l ∧ tree.get? l ≠ some .directory ∧
      after = tree.set l (.file bytes) := by
  obtain ⟨l, located, rest⟩ := bind_eq_ok writes
  cases ends : path.endsInSlash with
  | true =>
    rw [ends] at rest
    cases rest
  | false =>
    rw [ends] at rest
    rw [Path.trimSlashes_of_not_endsInSlash ends] at located
    refine ⟨l, located, ?_⟩
    simp only [Bool.false_eq_true, if_false] at rest
    split at rest
    · cases rest
    case h_2 other =>
      cases rest
      exact ⟨other, rfl⟩

theorem keepsDirectories_set_file {l : Location} {bytes : ByteArray}
    (free : tree.get? l ≠ some .directory) : KeepsDirectories tree (tree.set l (.file bytes)) := by
  intro l' directory
  have elsewhere : l' ≠ l := by
    rintro rfl
    exact free directory
  rwa [get?_set_other elsewhere]

end FileTree

end IdlTypings
