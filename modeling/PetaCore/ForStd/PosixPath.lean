import Mathlib.Data.List.Basic

/-!
# POSIX paths

The path functions of Node for POSIX, over the characters of a path. Where an absolute path leads is
its place: the names from the root on, when there are no links on the way.

- `normalSegments_normalize`: a path leads to the same place when it is normalized
- `foldl_push_append`: a relative path that does not go up stays below the place it starts from
- `place_dirname_render`: the parent
-/

namespace PosixPath

/-- The segment `.` -/
def dot : List Char := ['.']

/-- The segment `..` -/
def dotDot : List Char := ['.', '.']

/-- The next segment of a path; `above` says whether `..` may stay at its front. -/
def push (above : Bool) (segments : List (List Char)) (segment : List Char) : List (List Char) :=
  if segment = [] ∨ segment = dot then segments
  else if segment = dotDot then
    if segments ≠ [] ∧ segments.getLast? ≠ some dotDot then segments.dropLast
    else if above then segments ++ [dotDot] else segments
  else segments ++ [segment]

/-- The segments of `normalizeString` -/
def normalSegments (above : Bool) (path : List Char) : List (List Char) :=
  (path.splitOn '/').foldl (push above) []

/-- The place of an absolute path. -/
def place (path : List Char) : List (List Char) := normalSegments false path

/-- `path.isAbsolute` -/
def isAbsolute (path : List Char) : Bool := path.head? = some '/'

/-- `path.normalize` -/
def normalize (path : List Char) : List Char :=
  if path = [] then dot
  else
    let root := if isAbsolute path then ['/'] else []
    let trailing := if path.getLast? = some '/' then ['/'] else []
    let segments := normalSegments (!isAbsolute path) path
    if segments = [] then if isAbsolute path then root else dot ++ trailing
    else root ++ ['/'].intercalate segments ++ trailing

/-- `path.join`, of two paths -/
def join (a b : List Char) : List Char :=
  let paths := [a, b].filter fun path => path ≠ []
  if paths = [] then dot else normalize (['/'].intercalate paths)

/-- The absolute path of a place. -/
def render (segments : List (List Char)) : List Char := '/' :: ['/'].intercalate segments

/-- `path.resolve`, in the working directory `cwd`, which is an absolute path -/
def resolve (cwd path : List Char) : List Char :=
  render (place (if isAbsolute path then path else cwd ++ '/' :: path))

/-- `path.dirname` -/
def dirname : List Char → List Char
  | [] => dot
  | c :: path =>
    match (path.reverse.dropWhile (· = '/')).dropWhile (· ≠ '/') with
    | [] => if c = '/' then ['/'] else dot
    | _ :: rest => if c = '/' ∧ rest = [] then ['/', '/'] else c :: rest.reverse

variable {above : Bool} {path : List Char} {segments : List (List Char)}

/-! ## Segments -/

/-- A name of a file. -/
structure IsName (segment : List Char) : Prop where
  ne_nil : segment ≠ []
  ne_dot : segment ≠ dot
  ne_dotDot : segment ≠ dotDot
  sep : '/' ∉ segment

@[simp] theorem push_nil : push above segments [] = segments := by simp [push]

theorem IsName.push {segment : List Char} (h : IsName segment) :
    push above segments segment = segments ++ [segment] := by
  simp [PosixPath.push, h.ne_nil, h.ne_dot, h.ne_dotDot]

theorem foldl_push_names {names : List (List Char)} (h : ∀ s ∈ names, IsName s) :
    names.foldl (push above) segments = segments ++ names := by
  induction names generalizing segments with
  | nil => simp
  | cons s names ih =>
    rw [List.foldl_cons, (h s List.mem_cons_self).push,
      ih fun s hs => h s (List.mem_cons_of_mem _ hs), List.append_assoc, List.singleton_append]

theorem normalSegments_append_sep (a b : List Char) :
    normalSegments above (a ++ '/' :: b) =
      (b.splitOn '/').foldl (push above) (normalSegments above a) := by
  rw [normalSegments, List.splitOn_append_cons_self, List.foldl_append, normalSegments]

@[simp] theorem normalSegments_nil : normalSegments above [] = [] := by
  simp [normalSegments]

@[simp] theorem normalSegments_append_trailing (a : List Char) :
    normalSegments above (a ++ ['/']) = normalSegments above a := by
  rw [normalSegments_append_sep]
  simp

theorem normalSegments_sep_cons (b : List Char) :
    normalSegments above ('/' :: b) = normalSegments above b := by
  rw [← List.nil_append ('/' :: b), normalSegments_append_sep, normalSegments_nil]
  rfl

variable {s : List Char}

theorem mem_push {segment : List Char} (h : s ∈ push above segments segment) :
    s ∈ segments ∨ s = segment ∧ s ≠ [] ∧ s ≠ dot ∧ (above = false → s ≠ dotDot) := by
  unfold push at h
  split at h
  · exact .inl h
  · next hne =>
    rw [not_or] at hne
    split at h
    · next hdotDot =>
      split at h
      · exact .inl (List.dropLast_subset _ h)
      · split at h
        · next habove =>
          rcases List.mem_append.mp h with h | h
          · exact .inl h
          · rw [List.mem_singleton.mp h, ← hdotDot]
            exact .inr ⟨rfl, hne.1, hne.2, by simp [habove]⟩
        · exact .inl h
    · next hdotDot =>
      rcases List.mem_append.mp h with h | h
      · exact .inl h
      · rw [List.mem_singleton.mp h]
        exact .inr ⟨rfl, hne.1, hne.2, fun _ => hdotDot⟩

theorem notMem_of_mem_splitOn (h : s ∈ path.splitOn '/') : '/' ∉ s := by
  induction path generalizing s with
  | nil =>
    rw [List.splitOn_nil, List.mem_singleton] at h
    simp [h]
  | cons c path ih =>
    rw [List.splitOn_cons_eq_if_modifyHead] at h
    split at h
    · rcases List.mem_cons.mp h with rfl | h
      · simp
      · exact ih h
    · next hc =>
      cases hsplit : path.splitOn '/' with
      | nil => exact absurd hsplit (List.splitOn_ne_nil _ _)
      | cons s₀ rest =>
        rw [hsplit, List.modifyHead_cons] at h
        rw [hsplit] at ih
        rcases List.mem_cons.mp h with rfl | h
        · rw [List.mem_cons, not_or]
          exact ⟨fun heq => hc (beq_iff_eq.mpr heq.symm), ih List.mem_cons_self⟩
        · exact ih (List.mem_cons_of_mem _ h)

/-- The segments of a normalized path are names, up to those that go up at its front. -/
theorem isName_of_mem (h : s ∈ normalSegments above path)
    (hdotDot : above = false ∨ s ≠ dotDot) : IsName s := by
  have hfold : ∀ pieces ⊆ path.splitOn '/', ∀ segments, s ∈ pieces.foldl (push above) segments →
      s ∈ segments ∨ s ∈ path.splitOn '/' ∧ s ≠ [] ∧ s ≠ dot ∧ (above = false → s ≠ dotDot) := by
    intro pieces
    induction pieces with
    | nil => exact fun _ segments h => .inl h
    | cons piece pieces ih =>
      intro hsub segments h
      rcases ih (fun _ hx => hsub (List.mem_cons_of_mem _ hx)) _ h with h | h
      · rcases mem_push h with h | ⟨rfl, hpiece⟩
        · exact .inl h
        · exact .inr ⟨hsub List.mem_cons_self, hpiece⟩
      · exact .inr h
  rcases hfold _ (List.Subset.refl _) [] h with h | ⟨hmem, hne, hdot, hup⟩
  · cases h
  · refine ⟨hne, hdot, ?_, notMem_of_mem_splitOn hmem⟩
    rcases hdotDot with habove | hdotDot
    · exact hup habove
    · exact hdotDot

theorem isName_of_mem_place (h : s ∈ place path) : IsName s :=
  isName_of_mem h (.inl rfl)

theorem splitOn_intercalate_names (h : ∀ s ∈ segments, IsName s) (hne : segments ≠ []) :
    (['/'].intercalate segments).splitOn '/' = segments :=
  List.splitOn_intercalate '/' (fun s hs => (h s hs).sep) hne

theorem normalSegments_intercalate (h : ∀ s ∈ segments, IsName s) :
    normalSegments above (['/'].intercalate segments) = segments := by
  by_cases hne : segments = []
  · simp [hne]
  · rw [normalSegments, splitOn_intercalate_names h hne, foldl_push_names h, List.nil_append]

@[simp] theorem normalSegments_render (h : ∀ s ∈ segments, IsName s) :
    normalSegments above (render segments) = segments := by
  rw [render, normalSegments_sep_cons, normalSegments_intercalate h]

/-! ## Normalizing -/

/-- A path leads to the same place when it is normalized. -/
theorem normalSegments_normalize (h : ∀ s ∈ normalSegments (!isAbsolute path) path, IsName s) :
    normalSegments above (normalize path) = normalSegments (!isAbsolute path) path := by
  have hdot : normalSegments above dot = [] := by
    rw [normalSegments, List.splitOn_eq_singleton (by decide)]
    simp [push]
  have hroot : normalSegments above ['/'] = [] := by
    rw [normalSegments_sep_cons, normalSegments_nil]
  unfold normalize
  split
  · next hnil => rw [hnil, normalSegments_nil, hdot]
  simp only
  split
  · next hsegments =>
    rw [hsegments]
    split
    · exact hroot
    · split
      · rw [normalSegments_append_trailing, hdot]
      · rw [List.append_nil, hdot]
  · have hbody : ∀ trailing : List Char, trailing = ['/'] ∨ trailing = [] → normalSegments above
        (['/'].intercalate (normalSegments (!isAbsolute path) path) ++ trailing) =
        normalSegments (!isAbsolute path) path := by
      rintro trailing (rfl | rfl)
      · rw [normalSegments_append_trailing, normalSegments_intercalate h]
      · rw [List.append_nil, normalSegments_intercalate h]
    rw [List.append_assoc]
    split
    · rw [List.singleton_append, normalSegments_sep_cons, hbody _ (ite_eq_or_eq _ _ _)]
    · rw [List.nil_append, hbody _ (ite_eq_or_eq _ _ _)]

theorem place_normalize (h : isAbsolute path = true) : place (normalize path) = place path := by
  have hsegments : normalSegments (!isAbsolute path) path = place path := by rw [h]; rfl
  rw [place, normalSegments_normalize, hsegments]
  rw [hsegments]
  exact fun s hs => isName_of_mem_place hs

/-- A relative path goes up exactly when it does so after it has been normalized. -/
theorem dotDot_mem_splitOn_normalize (h : isAbsolute path = false) :
    dotDot ∈ (normalize path).splitOn '/' ↔ dotDot ∈ normalSegments true path := by
  have hsep : ∀ s ∈ normalSegments true path, '/' ∉ s := by
    intro s hs
    by_cases hdotDot : s = dotDot
    · simp [hdotDot, dotDot]
    · exact (isName_of_mem hs (.inr hdotDot)).sep
  have htrailing : ∀ a : List Char, dotDot ∈ (a ++ if path.getLast? = some '/' then ['/'] else
      []).splitOn '/' ↔ dotDot ∈ a.splitOn '/' := by
    intro a
    split
    · rw [List.splitOn_append_cons_self, List.splitOn_nil]
      simp [dotDot]
    · rw [List.append_nil]
  have hdot : dotDot ∉ dot.splitOn '/' := by decide
  unfold normalize
  split
  · next hnil => simp [hnil, hdot]
  · simp only [h, Bool.false_eq_true, if_false, Bool.not_false, List.nil_append]
    split
    · next hnil => simp [hnil, htrailing, hdot]
    · next hne => rw [htrailing, List.splitOn_intercalate '/' hsep hne]

/-- A relative path that does not go up stays below the place it starts from. By induction on its
    pieces: a segment that goes up is removed with the one before it. -/
theorem foldl_push_append (base segments pieces : List (List Char))
    (h : dotDot ∉ pieces.foldl (push true) segments) :
    pieces.foldl (push false) (base ++ segments) = base ++ pieces.foldl (push true) segments ∧
      dotDot ∉ segments := by
  induction pieces generalizing segments with
  | nil => exact ⟨rfl, h⟩
  | cons piece pieces ih =>
    obtain ⟨hfold, hnot⟩ := ih _ h
    rw [List.foldl_cons, List.foldl_cons]
    have hpush : push false (base ++ segments) piece = base ++ push true segments piece ∧
        dotDot ∉ segments := by
      unfold push at hnot ⊢
      split
      · next hskip => exact ⟨rfl, by rwa [if_pos hskip] at hnot⟩
      · next hskip =>
        rw [if_neg hskip] at hnot
        split
        · next hup =>
          rw [if_pos hup] at hnot
          split at hnot
          · next hlast =>
            have hmem : dotDot ∉ segments := by
              rw [← List.dropLast_append_getLast hlast.1, List.mem_append, List.mem_singleton,
                not_or]
              refine ⟨hnot, fun heq => hlast.2 ?_⟩
              rw [List.getLast?_eq_getLast_of_ne_nil hlast.1, ← heq]
            refine ⟨?_, hmem⟩
            rw [if_pos hlast, if_pos, List.dropLast_append_of_ne_nil hlast.1]
            refine ⟨by simp [hlast.1], ?_⟩
            rw [List.getLast?_append_of_ne_nil _ hlast.1]
            exact hlast.2
          · simp at hnot
        · next hup =>
          rw [if_neg hup, List.mem_append, not_or] at hnot
          exact ⟨List.append_assoc _ _ _, hnot.1⟩
    rw [hpush.1, hfold]
    exact ⟨rfl, hpush.2⟩

theorem place_append (base : List Char) (h : dotDot ∉ normalSegments true path) :
    place (base ++ '/' :: path) = place base ++ normalSegments true path := by
  have hfold := (foldl_push_append (place base) [] (path.splitOn '/') h).1
  rw [List.append_nil] at hfold
  rw [place, normalSegments_append_sep]
  exact hfold

theorem isAbsolute_normalize (h : isAbsolute path = true) : isAbsolute (normalize path) = true := by
  have hne : path ≠ [] := by
    rintro rfl
    cases h
  simp only [normalize, if_neg hne, if_pos h]
  split <;> rfl

/-- Two paths that are joined lead where they lead one after the other. -/
theorem place_join {a : List Char} (h : isAbsolute a = true) (b : List Char) :
    isAbsolute (join a b) = true ∧ place (join a b) = place (a ++ '/' :: b) := by
  have hne : a ≠ [] := by
    rintro rfl
    cases h
  have happend : ∀ rest, isAbsolute (a ++ rest) = true := by
    intro rest
    rw [isAbsolute, List.head?_append_of_ne_nil _ hne]
    exact h
  by_cases hb : b = []
  · subst hb
    have hjoin : join a [] = normalize a := by simp [join, hne]
    rw [hjoin, place_normalize h]
    exact ⟨isAbsolute_normalize h, (normalSegments_append_trailing a).symm⟩
  · have hjoin : join a b = normalize (a ++ '/' :: b) := by simp [join, hne, hb]
    rw [hjoin, place_normalize (happend _)]
    exact ⟨isAbsolute_normalize (happend _), rfl⟩

/-! ## Absolute paths -/

theorem resolve_of_isAbsolute (cwd : List Char) (h : isAbsolute path = true) :
    resolve cwd path = render (place path) := by
  rw [resolve, if_pos h]

theorem place_render (h : ∀ s ∈ segments, IsName s) : place (render segments) = segments :=
  normalSegments_render h

theorem render_append {base : List (List Char)} (hbase : base ≠ []) (hne : segments ≠ []) :
    render (base ++ segments) = render base ++ '/' :: ['/'].intercalate segments := by
  induction base with
  | nil => exact absurd rfl hbase
  | cons s base ih =>
    cases base with
    | nil => simp [render, List.intercalate_cons_of_ne_nil hne]
    | cons s' base =>
      have htail : ['/'].intercalate (s' :: (base ++ segments)) =
          ['/'].intercalate (s' :: base) ++ '/' :: ['/'].intercalate segments :=
        (List.cons.inj (ih (List.cons_ne_nil s' base))).2
      simp only [render, List.cons_append, List.intercalate_cons_cons, List.append_assoc, htail]

/-- The parent of a path. -/
theorem dirname_render (h : ∀ s ∈ segments, IsName s) (hs : IsName s) :
    dirname (render (segments ++ [s])) = render segments := by
  have hlast : ∀ rest : List Char, ((s.reverse ++ rest).dropWhile (· = '/')).dropWhile (· ≠ '/') =
      rest.dropWhile (· ≠ '/') := by
    intro rest
    have hall : ∀ c ∈ s.reverse, decide (c ≠ '/') = true := by
      intro c hc
      rw [List.mem_reverse] at hc
      exact decide_eq_true fun heq => hs.sep (heq ▸ hc)
    have hkeep : (s.reverse ++ rest).dropWhile (· = '/') = s.reverse ++ rest := by
      cases hrev : s.reverse with
      | nil => exact absurd (List.reverse_eq_nil_iff.mp hrev) hs.ne_nil
      | cons c cs =>
        have hc := hall c (by simp [hrev])
        rw [List.cons_append, List.dropWhile_cons_of_neg (by simpa using hc)]
    rw [hkeep, List.dropWhile_append_of_pos hall]
  cases segments with
  | nil =>
    have hnil := hlast []
    rw [List.append_nil] at hnil
    rw [List.nil_append, render, List.intercalate_singleton, dirname, hnil]
    rfl
  | cons s₀ segments =>
    have htext : ['/'].intercalate (s₀ :: segments ++ [s]) =
        ['/'].intercalate (s₀ :: segments) ++ '/' :: s := by
      have happend := render_append (List.cons_ne_nil s₀ segments) (List.cons_ne_nil s [])
      simpa [render] using happend
    have hrest := hlast ('/' :: (['/'].intercalate (s₀ :: segments)).reverse)
    have hne : ['/'].intercalate (s₀ :: segments) ≠ [] := by
      have hs₀ := (h s₀ List.mem_cons_self).ne_nil
      cases segments with
      | nil => simpa using hs₀
      | cons s₁ segments => simp
    rw [List.dropWhile_cons_of_neg (by simp)] at hrest
    rw [render, htext, dirname, List.reverse_append, List.reverse_cons, List.append_assoc,
      List.singleton_append, hrest]
    simp [hne, render]

end PosixPath
