import Mathlib.Data.List.Basic

/-!
# POSIX paths

Normalisation and joining of path names by their components.  An empty
component and a dot are dropped, and two dots cancel the component before them;
in front of a relative path they stay, and at the root they are dropped.
-/

namespace ZcashSoloPool.Web.PosixPath

/-- The name of the directory itself. -/
def here : List Char :=
  ['.']

/-- The name of the parent directory. -/
def parent : List Char :=
  ['.', '.']

/-- Add a component to those before it, the last one first. -/
def push (absolute : Bool) (stack : List (List Char)) (component : List Char) :
    List (List Char) :=
  if component = [] ∨ component = here then stack
  else if component = parent then
    match stack with
    | [] => if absolute then [] else [parent]
    | top :: below => if top = parent then parent :: top :: below else below
  else component :: stack

/-- The components that remain. -/
def resolve (absolute : Bool) (components : List (List Char)) : List (List Char) :=
  (components.foldl (push absolute) []).reverse

/-- `path.normalize`. -/
def normalize (path : List Char) : List Char :=
  if path = [] then here
  else
    let absolute := path.head? == some '/'
    let trailing := path.getLast? == some '/'
    let kept := resolve absolute (path.splitOn '/')
    if kept = [] then
      if absolute then ['/'] else if trailing then here ++ ['/'] else here
    else
      (if absolute then ['/'] else []) ++ ['/'].intercalate kept ++
        if trailing then ['/'] else []

/-- `path.join`. -/
def join (paths : List (List Char)) : List Char :=
  let joined := ['/'].intercalate (paths.filter (· ≠ []))
  if joined = [] then here else normalize joined

/-! ## Components -/

/-- A component that takes part in a path: neither empty nor a dot. -/
def isSolid (component : List Char) : Bool :=
  decide (component ≠ []) && decide (component ≠ here)

/-- Steps to the parent come first. -/
def ParentsFirst (components : List (List Char)) : Prop :=
  components.Pairwise fun first later => later = parent → first = parent

instance (components : List (List Char)) : Decidable (ParentsFirst components) :=
  inferInstanceAs (Decidable (List.Pairwise _ _))

theorem parentsFirst_of_not_mem {components : List (List Char)} (absent : parent ∉ components) :
    ParentsFirst components :=
  List.pairwise_iff_forall_sublist.mpr fun sublist isParent =>
    absurd (isParent ▸ sublist.subset (List.mem_cons_of_mem _ List.mem_cons_self)) absent

/-- No component of a path contains the separator. -/
theorem slash_not_mem_of_mem_splitOn {path component : List Char}
    (member : component ∈ path.splitOn '/') : '/' ∉ component := by
  induction path generalizing component with
  | nil =>
      rw [List.splitOn_nil, List.mem_singleton] at member
      simp [member]
  | cons c rest ih =>
      obtain ⟨first, others, split⟩ := List.exists_cons_of_ne_nil (List.splitOn_ne_nil '/' rest)
      rw [List.splitOn_cons_eq_if_modifyHead] at member
      split at member
      · rcases List.mem_cons.mp member with rfl | member
        · exact List.not_mem_nil
        · exact ih member
      · next notSlash =>
          rw [split, List.modifyHead_cons] at member
          rcases List.mem_cons.mp member with rfl | member
          · have firstFree : '/' ∉ first := ih (by simp [split])
            have different : '/' ≠ c := fun equal => notSlash (beq_iff_eq.mpr equal.symm)
            simp [firstFree, different]
          · exact ih (by simp [split, member])

/-! ## Resolving -/

/-- The components that are kept so far, the last one first: without
separators, with the steps to the parent at the bottom, and without any below
the root. -/
structure Stacked (absolute : Bool) (stack : List (List Char)) : Prop where
  whole : ∀ component ∈ stack, '/' ∉ component
  ordered : stack.Pairwise fun later first => later = parent → first = parent
  rooted : absolute = true → parent ∉ stack

/-- One more component keeps the order. -/
theorem Stacked.push {absolute : Bool} {stack : List (List Char)} (stacked : Stacked absolute stack)
    {component : List Char} (whole : '/' ∉ component) :
    Stacked absolute (push absolute stack component) := by
  unfold PosixPath.push
  split
  · exact stacked
  · split
    · cases stack with
      | nil =>
          cases absolute with
          | true => exact stacked
          | false => exact ⟨by simp [parent], by simp, by simp⟩
      | cons top below =>
          obtain ⟨-, belowOrdered⟩ := List.pairwise_cons.mp stacked.ordered
          by_cases isParent : top = parent
          · have onlyParents : ∀ first ∈ top :: below, first = parent := by
              intro first member
              rcases List.mem_cons.mp member with rfl | member
              · exact isParent
              · exact List.rel_of_pairwise_cons stacked.ordered member isParent
            simp only [if_pos isParent]
            subst isParent
            refine ⟨?_, ?_, ?_⟩
            · intro component member
              rcases List.mem_cons.mp member with rfl | member
              · decide
              · exact stacked.whole component member
            · exact List.pairwise_cons.mpr
                ⟨fun first member _ => onlyParents first member, stacked.ordered⟩
            · intro isAbsolute
              exact absurd List.mem_cons_self (stacked.rooted isAbsolute)
          · simp only [if_neg isParent]
            exact ⟨fun component member =>
                stacked.whole component (List.mem_cons_of_mem top member),
              belowOrdered,
              fun isAbsolute member =>
                stacked.rooted isAbsolute (List.mem_cons_of_mem top member)⟩
    · next notParent =>
        refine ⟨?_, ?_, ?_⟩
        · intro other member
          rcases List.mem_cons.mp member with rfl | member
          · exact whole
          · exact stacked.whole other member
        · exact List.pairwise_cons.mpr
            ⟨fun first _ isParent => absurd isParent notParent, stacked.ordered⟩
        · intro isAbsolute member
          rcases List.mem_cons.mp member with equal | member
          · exact notParent equal.symm
          · exact stacked.rooted isAbsolute member

theorem Stacked.foldl {absolute : Bool} {components stack : List (List Char)}
    (stacked : Stacked absolute stack) (whole : ∀ component ∈ components, '/' ∉ component) :
    Stacked absolute (components.foldl (PosixPath.push absolute) stack) := by
  induction components generalizing stack with
  | nil => exact stacked
  | cons component rest ih =>
      exact ih (stacked.push (whole component List.mem_cons_self))
        fun other member => whole other (List.mem_cons_of_mem component member)

/-- The components that remain of a path. -/
theorem stacked_resolve (absolute : Bool) (path : List Char) :
    Stacked absolute (resolve absolute (path.splitOn '/')).reverse := by
  rw [resolve, List.reverse_reverse]
  exact Stacked.foldl ⟨by simp, List.Pairwise.nil, by simp⟩
    fun component member => slash_not_mem_of_mem_splitOn member

/-- Names are kept in order; an empty component and a dot are not. -/
theorem foldl_push_of_not_mem (absolute : Bool) {components : List (List Char)}
    (noParent : parent ∉ components) (stack : List (List Char)) :
    components.foldl (push absolute) stack =
      (components.filter isSolid).reverse ++ stack := by
  induction components generalizing stack with
  | nil => rfl
  | cons component rest ih =>
      obtain ⟨notParent, restNoParent⟩ := List.ne_and_not_mem_of_not_mem_cons noParent
      rw [List.foldl_cons, ih restNoParent]
      by_cases dropped : component = [] ∨ component = here
      · have notSolid : isSolid component = false := by
          rcases dropped with rfl | rfl <;> rfl
        rw [push.eq_def, if_pos dropped, List.filter_cons_of_neg (by simp [notSolid])]
      · have solid : isSolid component = true := by
          simpa [isSolid, not_or] using dropped
        rw [push.eq_def, if_neg dropped, if_neg (Ne.symm notParent),
          List.filter_cons_of_pos solid]
        simp

theorem resolve_of_not_mem (absolute : Bool) {components : List (List Char)}
    (noParent : parent ∉ components) :
    resolve absolute components = components.filter isSolid := by
  simp [resolve, foldl_push_of_not_mem absolute noParent]

/-! ## Normal paths -/

/-- The components of a text between optional separators. -/
theorem splitOn_decorated {kept : List (List Char)} (nonempty : kept ≠ [])
    (whole : ∀ component ∈ kept, '/' ∉ component) (absolute trailing : Bool) :
    ((if absolute then ['/'] else []) ++ ['/'].intercalate kept ++
        if trailing then ['/'] else []).splitOn '/' =
      (if absolute then [[]] else []) ++ kept ++ if trailing then [[]] else [] := by
  have inner : (['/'].intercalate kept).splitOn '/' = kept :=
    List.splitOn_intercalate '/' whole nonempty
  have behind : (['/'].intercalate kept ++ if trailing then ['/'] else []).splitOn '/' =
      kept ++ if trailing then [[]] else [] := by
    cases trailing with
    | false => simpa using inner
    | true =>
        have last := List.splitOn_append_cons_self (a := '/') (['/'].intercalate kept) []
        simpa [inner] using last
  cases absolute with
  | false => simpa using behind
  | true =>
      have first := List.splitOn_append_cons_self (a := '/') []
        (['/'].intercalate kept ++ if trailing then ['/'] else [])
      simpa [behind] using first

/-- A normalised path has its steps to the parent in front. -/
theorem parentsFirst_normalize (path : List Char) :
    ParentsFirst ((normalize path).splitOn '/') := by
  unfold normalize
  dsimp only
  split
  · decide
  · split
    · split
      · decide
      · split <;> decide
    · next kept =>
        have stacked := stacked_resolve (path.head? == some '/') path
        have ordered : ParentsFirst (resolve (path.head? == some '/') (path.splitOn '/')) :=
          List.pairwise_reverse.mp stacked.ordered
        rw [splitOn_decorated kept fun component member =>
          stacked.whole component (List.mem_reverse.mpr member)]
        refine List.pairwise_append.mpr ⟨List.pairwise_append.mpr ⟨?_, ordered, ?_⟩, ?_, ?_⟩
        · split <;> simp
        · intro first member later laterMember isParent
          cases absolute : path.head? == some '/' with
          | false => simp [absolute] at member
          | true =>
              rw [absolute] at laterMember stacked
              exact absurd (isParent ▸ List.mem_reverse.mpr laterMember) (stacked.rooted rfl)
        · split <;> simp
        · intro first _ later member isParent
          split at member
          · rw [List.mem_singleton.mp member] at isParent
            contradiction
          · contradiction

/-! ## Paths below a directory -/

/-- An absolute path in normal form other than the root. -/
structure Directory where
  names : List (List Char)
  nonempty : names ≠ []
  whole : ∀ name ∈ names, '/' ∉ name
  solid : ∀ name ∈ names, isSolid name = true
  noParent : parent ∉ names

namespace Directory

/-- The text of the path. -/
def text (directory : Directory) : List Char :=
  '/' :: ['/'].intercalate directory.names

/-- The path is that of the directory, or that of something in it. -/
def Within (directory : Directory) (path : List Char) : Prop :=
  path = directory.text ∨
    ∃ rest, path = directory.text ++ '/' :: rest ∧ parent ∉ rest.splitOn '/'

theorem splitOn_text (directory : Directory) :
    directory.text.splitOn '/' = [] :: directory.names := by
  have whole := splitOn_decorated directory.nonempty directory.whole true false
  simpa [text] using whole

theorem intercalate_append {front back : List (List Char)} (frontNonempty : front ≠ [])
    (backNonempty : back ≠ []) :
    ['/'].intercalate (front ++ back) =
      ['/'].intercalate front ++ '/' :: ['/'].intercalate back := by
  induction front with
  | nil => contradiction
  | cons first rest ih =>
      cases rest with
      | nil => simp [List.intercalate_cons_of_ne_nil backNonempty]
      | cons second others =>
          have later := ih (List.cons_ne_nil second others)
          rw [List.cons_append, List.intercalate_cons_of_ne_nil (by simp), later,
            List.intercalate_cons_of_ne_nil (List.cons_ne_nil second others)]
          simp

/-- A path that starts with the names of a directory and has no step to the
parent is normalised to the directory or to something in it. -/
theorem within_normalize (directory : Directory) {path : List Char} {more : List (List Char)}
    (rooted : path.head? = some '/') (components : path.splitOn '/' = [] :: directory.names ++ more)
    (noParent : parent ∉ more) : directory.Within (normalize path) := by
  have nonempty : path ≠ [] := by
    rintro rfl
    contradiction
  have absent : parent ∉ path.splitOn '/' := by
    have notEmpty : parent ≠ [] := by decide
    rw [components]
    simp [directory.noParent, noParent, notEmpty]
  have kept : resolve true (path.splitOn '/') = directory.names ++ more.filter isSolid := by
    rw [resolve_of_not_mem true absent, components, List.cons_append,
      List.filter_cons_of_neg (by decide), List.filter_append,
      List.filter_eq_self.mpr directory.solid]
  have solidRoot : directory.names ++ more.filter isSolid ≠ [] :=
    List.append_ne_nil_of_left_ne_nil directory.nonempty _
  have normal : normalize path =
      '/' :: ['/'].intercalate (directory.names ++ more.filter isSolid) ++
        if path.getLast? == some '/' then ['/'] else [] := by
    simp [normalize, nonempty, rooted, kept, solidRoot]
  rw [normal]
  by_cases nothing : more.filter isSolid = []
  · rw [nothing, List.append_nil]
    split
    · exact Or.inr ⟨[], rfl, by decide⟩
    · exact Or.inl (List.append_nil _)
  · refine Or.inr ⟨['/'].intercalate (more.filter isSolid) ++
      if path.getLast? == some '/' then ['/'] else [], ?_, ?_⟩
    · rw [intercalate_append directory.nonempty nothing, text]
      simp
    · have whole : ∀ name ∈ more.filter isSolid, '/' ∉ name := by
        intro name member
        have listed : name ∈ path.splitOn '/' := by
          rw [components]
          exact List.mem_append_right _ (List.mem_filter.mp member).1
        exact slash_not_mem_of_mem_splitOn listed
      have split := splitOn_decorated nothing whole false (path.getLast? == some '/')
      simp only [Bool.false_eq_true, if_false, List.nil_append] at split
      rw [split, List.mem_append, not_or]
      constructor
      · exact fun member => noParent (List.mem_filter.mp member).1
      · split <;> simp [parent]

/-- Joined with a path that has no step to the parent, a directory gives
itself or something in it. -/
theorem within_join (directory : Directory) {rest : List Char}
    (noParent : parent ∉ rest.splitOn '/') : directory.Within (join [directory.text, rest]) := by
  have split := directory.splitOn_text
  by_cases nothing : rest = []
  · have alone : join [directory.text, rest] = normalize directory.text := by
      simp [join, nothing, text]
    have components : directory.text.splitOn '/' = [] :: directory.names ++ [] := by simp [split]
    rw [alone]
    exact within_normalize directory rfl components List.not_mem_nil
  · have joined : join [directory.text, rest] = normalize (directory.text ++ '/' :: rest) := by
      simp [join, nothing, text]
    have components : (directory.text ++ '/' :: rest).splitOn '/' =
        [] :: directory.names ++ rest.splitOn '/' := by
      rw [List.splitOn_append_cons_self, split]
    rw [joined]
    exact within_normalize directory rfl components noParent

end Directory

end ZcashSoloPool.Web.PosixPath
