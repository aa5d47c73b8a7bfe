import Bearer.Path
import Mathlib.Data.List.Chain
import Mathlib.Data.List.DropRight

/-! What counts of a root is the list of its segments: the normal form of a root has just these, and two roots have
one normal form exactly if they have the same segments. -/

namespace Bearer

namespace Text

theorem splitOn_eq (separator : CodePoint) (t : Text) : splitOn separator t = List.splitOn separator t := by
  induction t with
  | nil => rfl
  | cons c rest ih =>
      rw [splitOn, ih, List.splitOn_cons_eq_if_modifyHead]
      by_cases hc : c = separator
      · simp [hc]
      · cases hPieces : List.splitOn separator rest with
        | nil => exact absurd hPieces (List.splitOn_ne_nil separator rest)
        | cons piece pieces => simp [hc]

theorem not_mem_of_mem_splitOn {separator : CodePoint} {t piece : Text} (hPiece : piece ∈ splitOn separator t) :
    separator ∉ piece := by
  induction t generalizing piece with
  | nil => simp [splitOn] at hPiece; simp [hPiece]
  | cons c rest ih =>
      rw [splitOn] at hPiece
      split at hPiece
      · rcases List.mem_cons.mp hPiece with rfl | hRest
        · exact List.not_mem_nil
        · exact ih hRest
      · next hc =>
          split at hPiece
          · next hNone => exact absurd hNone (splitOn_ne_nil separator rest)
          · next first pieces hPieces =>
              rcases List.mem_cons.mp hPiece with rfl | hRest
              · have hFirst : separator ∉ first := ih (by simp [hPieces])
                simp [Ne.symm hc, hFirst]
              · exact ih (by simp [hPieces, hRest])

theorem dropEndWhile_eq (p : CodePoint → Bool) (t : Text) : dropEndWhile p t = t.rdropWhile p := rfl

end Text

namespace Path

/-- A text that can be a segment: not empty, and without a slash. -/
structure IsSegment (part : Text) : Prop where
  ne_nil : part ≠ []
  no_slash : slash ∉ part

theorem isSegment_of_mem {part t : Text} (hPart : part ∈ segments t) : IsSegment part := by
  obtain ⟨hPiece, hFilled⟩ := List.mem_filter.mp hPart
  exact ⟨of_decide_eq_true hFilled, Text.not_mem_of_mem_splitOn hPiece⟩

theorem segments_eq (t : Text) : segments t = (List.splitOn slash t).filter (· ≠ []) := by
  rw [segments, Text.splitOn_eq]

@[simp] theorem segments_nil : segments [] = [] := rfl

@[simp] theorem segments_append_slash (t rest : Text) :
    segments (t ++ slash :: rest) = segments t ++ segments rest := by
  simp only [segments_eq, List.splitOn_append_cons_self, List.filter_append]

@[simp] theorem segments_slash_cons (rest : Text) : segments (slash :: rest) = segments rest :=
  segments_append_slash [] rest

theorem IsSegment.segments_eq {part : Text} (h : IsSegment part) : segments part = [part] := by
  simp [Path.segments_eq, List.splitOn_eq_singleton h.no_slash, h.ne_nil]

/-- Slashes at either end make no segment. -/
theorem segments_trim (t : Text) : segments (Text.trim isSlash t) = segments t := by
  have hFront : segments (t.dropWhile isSlash) = segments t := by
    induction t with
    | nil => rfl
    | cons c t ih =>
        by_cases hc : c = slash
        · simp [hc, isSlash, ih]
        · simp [hc, isSlash]
  rw [← hFront, Text.trim, Text.dropEndWhile_eq]
  induction t.dropWhile isSlash using List.reverseRecOn with
  | nil => rfl
  | append_singleton t c ih =>
      by_cases hc : c = slash
      · rw [hc, List.rdropWhile_concat_pos _ _ _ (by simp [isSlash]), segments_append_slash, segments_nil,
          List.append_nil]
        exact ih
      · rw [List.rdropWhile_concat_neg _ _ _ (by simpa [isSlash] using hc)]

/-- Segments with a slash in front of each. -/
def trail (parts : List Text) : Text := parts.flatMap (slash :: ·)

@[simp] theorem trail_nil : trail [] = [] := rfl

@[simp] theorem trail_cons (part : Text) (parts : List Text) :
    trail (part :: parts) = slash :: part ++ trail parts := rfl

theorem trail_eq_join {parts : List Text} (hParts : parts ≠ []) :
    trail parts = slash :: Text.join [slash] parts := by
  induction parts with
  | nil => contradiction
  | cons part parts ih =>
      cases parts with
      | nil => simp [Text.join, List.intercalate]
      | cons next parts => rw [trail_cons, ih (by simp), Text.join, Text.join, List.intercalate_cons_cons]; simp

theorem normalize_eq (root : Text) : normalize root = trail (segments root) ++ [slash] := by
  unfold normalize
  split
  · next hNone => rw [hNone]; rfl
  · next hSome => rw [trail_eq_join hSome]; rfl

theorem segments_trail_append {parts : List Text} (hParts : ∀ part ∈ parts, IsSegment part) (rest : Text) :
    segments (trail parts ++ slash :: rest) = parts ++ segments rest := by
  rw [segments_append_slash]
  congr 1
  induction parts with
  | nil => rfl
  | cons part parts ih =>
      have hPart := (hParts part List.mem_cons_self).segments_eq
      have hRest := ih fun p hp => hParts p (List.mem_cons_of_mem part hp)
      cases parts with
      | nil => simp [hPart]
      | cons next parts =>
          rw [trail_cons, List.cons_append, segments_slash_cons, trail_cons, List.cons_append,
            segments_append_slash, hPart, List.singleton_append]
          rw [trail_cons, List.cons_append, segments_slash_cons] at hRest
          rw [hRest]

/-- A trail ends in a segment. -/
theorem rdropWhile_trail {parts : List Text} (hParts : ∀ part ∈ parts, IsSegment part) :
    (trail parts).rdropWhile isSlash = trail parts := by
  rw [List.rdropWhile_eq_self_iff]
  intro hTrail
  induction parts with
  | nil => contradiction
  | cons part parts ih =>
      have hPart := hParts part List.mem_cons_self
      cases parts with
      | nil =>
          have hLast : (trail [part]).getLast hTrail ∈ part := by
            simp [List.getLast_cons hPart.ne_nil]
          intro hSlash
          exact hPart.no_slash (eq_of_beq hSlash ▸ hLast)
      | cons next parts =>
          have hRest : trail (next :: parts) ≠ [] := by simp
          have hLast := ih (fun p hp => hParts p (List.mem_cons_of_mem part hp)) hRest
          rwa [show (trail (part :: next :: parts)).getLast hTrail = (trail (next :: parts)).getLast hRest from
            List.getLast_append_of_ne_nil _ hRest]

/-- What a path adds to its root: nothing if there are but slashes in it. -/
def addition (path : Text) : Text :=
  if ∀ c ∈ path, c = slash then [] else slash :: Text.trim isSlash path

theorem trim_eq_nil_iff {path : Text} : Text.trim isSlash path = [] ↔ ∀ c ∈ path, c = slash := by
  rw [Text.trim, Text.dropEndWhile_eq, List.rdropWhile_eq_nil_iff]
  constructor
  · intro hAll c hc
    rw [← List.takeWhile_append_dropWhile (p := isSlash) (l := path), List.mem_append] at hc
    rcases hc with hFront | hRest
    · exact eq_of_beq (a := c) (List.mem_takeWhile_imp (p := isSlash) hFront)
    · exact eq_of_beq (hAll c hRest)
  · intro hAll c hc
    exact beq_iff_eq.mpr (hAll c (List.dropWhile_sublist _ |>.mem hc))

theorem addition_inj {path path' : Text} :
    addition path = addition path' ↔ Text.trim isSlash path = Text.trim isSlash path' := by
  simp only [addition, ← trim_eq_nil_iff]
  split
  · next hNil =>
      rw [hNil]
      split
      · next hNil' => simp [hNil']
      · next hSome' => simp [Ne.symm hSome']
  · next hSome =>
      split
      · next hNil' => simp [hNil', hSome]
      · simp

/-- Of a root in normal form and a path there remain the segments of the root and what the path adds. -/
theorem under_normalize (root path : Text) :
    under (normalize root) path = trail (segments root) ++ addition path := by
  have hTrail := rdropWhile_trail fun part hPart => isSegment_of_mem (t := root) hPart
  rw [under, Text.dropEndWhile_eq, normalize_eq, addition]
  split
  · next hAll =>
      have hNone : path.dropWhile isSlash = [] :=
        List.dropWhile_eq_nil_iff.mpr fun c hc => beq_iff_eq.mpr (hAll c hc)
      rw [hNone, List.append_nil, List.append_nil, List.rdropWhile_concat_pos _ _ _ (by simp [isSlash])]
      exact hTrail
  · next hSome =>
      have hFilled : Text.trim isSlash path ≠ [] := trim_eq_nil_iff.not.mpr hSome
      have hReverse : ¬((path.dropWhile isSlash).reverse.dropWhile isSlash).isEmpty := by
        simpa [Text.trim, Text.dropEndWhile] using hFilled
      rw [List.rdropWhile, List.reverse_append, List.dropWhile_append, if_neg hReverse]
      simp [Text.trim, Text.dropEndWhile]

theorem segments_under (root path : Text) :
    segments (under (normalize root) path) = segments root ++ segments path := by
  have hParts : ∀ part ∈ segments root, IsSegment part := fun part hPart => isSegment_of_mem hPart
  rw [under_normalize, addition]
  split
  · next hAll =>
      have hPath : segments path = [] := by
        rw [← segments_trim, trim_eq_nil_iff.mpr hAll, segments_nil]
      have hTrail := segments_trail_append hParts []
      rw [segments_append_slash, segments_nil, List.append_nil] at hTrail
      rw [hPath, List.append_nil, hTrail]
  · rw [segments_trail_append hParts, segments_trim]

/-- Paths stay below their roots and do not collide. A path below a root in normal form is empty, or begins with
a slash and does not end with one. It is the root without its last slash, and nothing more if there are but
slashes in the path, otherwise a slash and the path without the slashes at either end. Its segments are those of
the root and then those of the path. Below one root two paths meet exactly if they are the same without the
slashes at either end, and below two roots they never do unless the segments of one root begin with those of
the other. -/
theorem paths_stay_below_roots (root root' path path' : Text) :
    (under (normalize root) path = [] ∨ (under (normalize root) path).head? = some slash ∧
        (under (normalize root) path).getLast? ≠ some slash) ∧
      (∃ base, normalize root = base ++ [slash] ∧ under (normalize root) path =
        base ++ if ∀ c ∈ path, c = slash then [] else slash :: Text.trim isSlash path) ∧
      segments (under (normalize root) path) = segments root ++ segments path ∧
      (under (normalize root) path = under (normalize root) path' ↔
        Text.trim isSlash path = Text.trim isSlash path') ∧
      (¬segments root <+: segments root' → ¬segments root' <+: segments root →
        under (normalize root) path ≠ under (normalize root') path') := by
  refine ⟨?_, ⟨_, normalize_eq root, under_normalize root path⟩, segments_under root path, ?_, ?_⟩
  · refine or_iff_not_imp_left.mpr fun hFilled => ⟨?_, ?_⟩
    · rw [under_normalize, addition] at hFilled ⊢
      cases hParts : segments root with
      | cons part parts => rfl
      | nil =>
          rw [hParts] at hFilled
          split at hFilled
          · contradiction
          · next hSome => rw [if_neg hSome]; rfl
    · intro hLast
      rw [List.getLast?_eq_some_getLast hFilled] at hLast
      exact List.rdropWhile_last_not isSlash _ hFilled (beq_iff_eq.mpr (Option.some.inj hLast))
  · rw [under_normalize, under_normalize, List.append_cancel_left_eq, addition_inj]
  · intro hFirst hSecond hSame
    have hSegments := congrArg segments hSame
    rw [segments_under, segments_under] at hSegments
    have hPrefix : segments root <+: segments root' ++ segments path' := ⟨_, hSegments⟩
    rcases List.prefix_or_prefix_of_prefix hPrefix (List.prefix_append _ _) with hBelow | hBelow
    · exact hFirst hBelow
    · exact hSecond hBelow

/-- Neither of `data` and `database` lies below the other. -/
theorem data_apart_from_database :
    ¬segments "/data" <+: segments "database/" ∧ ¬segments "database/" <+: segments "/data" ∧
      under (normalize "/data") "base/x" ≠ under (normalize "database/") "x" :=
  have hFirst : ¬segments "/data" <+: segments "database/" := by decide
  have hSecond : ¬segments "database/" <+: segments "/data" := by decide
  ⟨hFirst, hSecond, (paths_stay_below_roots "/data" "database/" "base/x" "x").2.2.2.2 hFirst hSecond⟩

end Path

end Bearer
