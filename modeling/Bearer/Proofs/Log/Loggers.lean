import Bearer.Log.Sink
import Mathlib.Data.List.Infix

/-! The names above a logger are names of loggers that begin its own, each in front of a point, and the ones above it
are those above the nearest. -/

namespace Bearer.Log.Loggers

variable {ls : Loggers} {name root : Text} {n : Nat}

/-- The point between the parts of a name. -/
def point : CodePoint := .scalar '.'

theorem above_cases (ls : Loggers) (reversed : Text) : ls.above reversed = [] ∨
    ∃ p : Text, point :: p.reverse <:+ reversed ∧ (ls.get? p).isSome = true ∧
      ls.above reversed = p :: ls.above p.reverse := by
  fun_induction above ls reversed with
  | case1 c rest hKnown ih =>
      exact .inr ⟨(c :: rest).reverse, by rw [List.reverse_reverse]; exact List.suffix_refl _, hKnown,
        by rw [List.reverse_reverse]⟩
  | case2 c rest hUnknown ih =>
      refine ih.imp_right fun ⟨p, hSuffix, hKnown, hAbove⟩ => ⟨p, hSuffix.trans ?_, hKnown, hAbove⟩
      exact (List.suffix_cons c rest).trans (List.suffix_cons _ _)
  | case3 c rest hOther ih =>
      exact ih.imp_right fun ⟨p, hSuffix, hKnown, hAbove⟩ =>
        ⟨p, hSuffix.trans (List.suffix_cons c rest), hKnown, hAbove⟩
  | case4 => exact .inl rfl

/-- Above a logger there is nothing, or there is a nearest logger and what is above it. -/
theorem lineage_cases (ls : Loggers) (name : Text) : ls.lineage name = [name] ∨
    ∃ p : Text, p ++ [point] <+: name ∧ (ls.get? p).isSome = true ∧
      ls.lineage name = name :: ls.lineage p := by
  rcases above_cases ls name.reverse with hNone | ⟨p, hSuffix, hKnown, hAbove⟩
  · exact .inl (by rw [lineage, hNone])
  · refine .inr ⟨p, ?_, hKnown, by rw [lineage, hAbove, lineage]⟩
    rw [← List.reverse_suffix, List.reverse_append]
    exact hSuffix

theorem length_lt_of_above {p : Text} (hPrefix : p ++ [point] <+: name) : p.length < name.length := by
  have hLength := hPrefix.length_le
  rw [List.length_append, List.length_singleton] at hLength
  omega

theorem lineage_of_no_point (hPoint : point ∉ name) : ls.lineage name = [name] := by
  refine (lineage_cases ls name).resolve_right ?_
  rintro ⟨p, hPrefix, -, -⟩
  exact hPoint (hPrefix.subset (List.mem_append_right p List.mem_cons_self))

/-- A logger that another one stands below has a name that begins that of the other one. -/
theorem prefix_of_mem_lineage (hMem : root ∈ ls.lineage name) : root = name ∨ root ++ [point] <+: name := by
  induction hLength : name.length using Nat.strong_induction_on generalizing name with
  | _ length ih =>
      subst hLength
      rcases lineage_cases ls name with hAlone | ⟨p, hPrefix, -, hLineage⟩
      · rw [hAlone] at hMem
        exact .inl (List.mem_singleton.mp hMem)
      · rw [hLineage] at hMem
        rcases List.mem_cons.mp hMem with hSame | hMem
        · exact .inl hSame
        · refine .inr ?_
          rcases ih _ (length_lt_of_above hPrefix) hMem rfl with rfl | hLonger
          · exact hPrefix
          · exact hLonger.trans ((List.prefix_append p _).trans hPrefix)

theorem above_point (c : CodePoint) (rest : Text) : ls.above (point :: c :: rest)
    = if (ls.get? (c :: rest).reverse).isSome then (c :: rest).reverse :: ls.above (c :: rest)
      else ls.above rest := by
  rw [point, above]

theorem above_of_ne {c : CodePoint} (hPoint : c ≠ point) (rest : Text) :
    ls.above (c :: rest) = ls.above rest := by
  rw [above]
  intro c' rest' hSame
  exact absurd hSame hPoint

theorem getLast?_of_cons {c : CodePoint} {rest : Text} (hLast : (c :: rest).getLast? ≠ some point) :
    rest.getLast? ≠ some point := by
  cases rest with
  | nil => exact nofun
  | cons d rest => rwa [List.getLast?_cons_cons] at hLast

/-- A search that begins above the point of a logger finds the logger, unless the point behind which it begins
is the next one. -/
theorem mem_above (hKnown : (ls.get? root).isSome = true) (hRoot : root ≠ []) :
    ∀ front : Text, front.getLast? ≠ some point → root ∈ ls.above (front ++ point :: root.reverse)
  | [], _ => by
      obtain ⟨c, rest, hReversed⟩ := List.exists_cons_of_ne_nil (List.reverse_ne_nil_iff.mpr hRoot)
      have hBack : (c :: rest).reverse = root := by rw [← hReversed, List.reverse_reverse]
      rw [List.nil_append, hReversed, above_point, hBack, if_pos hKnown]
      exact List.mem_cons_self
  | [c], hLast => by
      have hPoint : c ≠ point := fun hSame => hLast (congrArg some hSame)
      rw [List.singleton_append, above_of_ne hPoint]
      exact mem_above hKnown hRoot [] nofun
  | c :: d :: front, hLast => by
      have hNext := getLast?_of_cons hLast
      by_cases hPoint : c = point
      · rw [hPoint, List.cons_append, List.cons_append, above_point]
        split
        · exact List.mem_cons_of_mem _ (mem_above hKnown hRoot (d :: front) hNext)
        · exact mem_above hKnown hRoot front (getLast?_of_cons hNext)
      · rw [List.cons_append, above_of_ne hPoint]
        exact mem_above hKnown hRoot (d :: front) hNext

/-- A logger whose name and point begin another name stands above it, unless another point follows at once. -/
theorem mem_lineage_of_begins (hKnown : (ls.get? root).isSome = true) (hRoot : root ≠ [])
    (hPrefix : root ++ [point] <+: name) (hPlain : ¬root ++ [point, point] <+: name) :
    root ∈ ls.lineage name := by
  obtain ⟨tail, rfl⟩ := hPrefix
  have hLast : tail.reverse.getLast? ≠ some point := by
    rw [List.getLast?_reverse]
    intro hHead
    obtain ⟨rest, rfl⟩ := List.head?_eq_some_iff.mp hHead
    exact hPlain ⟨rest, by simp⟩
  have hReversed : (root ++ [point] ++ tail).reverse = tail.reverse ++ point :: root.reverse := by simp
  rw [lineage, hReversed]
  exact List.mem_cons_of_mem _ (mem_above hKnown hRoot tail.reverse hLast)

/-- Whether a logger is one of a few or stands below one of them. -/
def isUnder (roots : List Text) (ls : Loggers) (name : Text) : Bool := (ls.lineage name).any roots.contains

/-- Nothing is set for loggers but a few. -/
def Bare (roots : List Text) (ls : Loggers) : Prop := ∀ name ∉ roots, ∀ l, ls.get? name = some l → l = {}

/-- A few loggers have a level and one handler, and nothing is set for any other. -/
structure Listening (roots : List Text) (level : Nat) (ls : Loggers) : Prop where
  root : ∀ name ∈ roots, ls.get? name = some ⟨some level, 1⟩
  bare : ls.Bare roots

variable {roots : List Text} {level : Nat} {l : Logger}

theorem Bare.put (h : ls.Bare roots) (hName : name ∈ roots ∨ l = {}) : Bare roots (ls.put name l) := by
  intro other hOther l' hGet
  by_cases hSame : other = name
  · subst hSame
    rw [Entries.get?_put] at hGet
    rw [← Option.some.inj hGet]
    exact hName.resolve_left hOther
  · rw [Entries.get?_put_of_ne l ls hSame] at hGet
    exact h other hOther l' hGet

theorem Bare.touch (h : ls.Bare roots) (name : Text) : Bare roots (ls.touch name) := by
  unfold Loggers.touch
  split
  · exact h
  · exact h.put (.inr rfl)

/-- Asking for a logger leaves those that are there as they are. -/
theorem get?_touch_of_some (hGet : ls.get? root = some l) (name : Text) : (ls.touch name).get? root = some l := by
  unfold touch
  split
  · exact hGet
  · next hNew =>
      have hOther : root ≠ name := by
        rintro rfl
        rw [hGet] at hNew
        exact hNew rfl
      rw [Entries.get?_put_of_ne {} ls hOther, hGet]

theorem Listening.touch (h : ls.Listening roots level) (name : Text) :
    Listening roots level (ls.touch name) where
  root root hRoot := get?_touch_of_some (h.root root hRoot) name
  bare := h.bare.touch name

/-- A logger that is none of the few counts for as much as those above it. -/
theorem Bare.serves_as_above (h : ls.Bare roots) (hName : name ∉ roots) {above : List Text}
    (hLineage : ls.lineage name = name :: above) :
    let rest := above.filterMap fun n => ls.get? n
    ls.handlers name = rest.foldr (fun l n => l.handlers + n) 0 ∧
      ls.threshold name = (rest.findSome? (·.level)).getD Level.warning.number := by
  cases hGet : ls.get? name with
  | none => simp [handlers, threshold, chain, hLineage, hGet]
  | some l =>
      obtain rfl := h name hName l hGet
      simp [handlers, threshold, chain, hLineage, hGet]

/-- The loggers at and below the few give their entries to one handler, from the level up, and all
others give theirs to none. -/
theorem Listening.serves (h : ls.Listening roots level) (hRoots : ∀ root ∈ roots, point ∉ root) (name : Text) :
    ls.handlers name = (if ls.isUnder roots name then 1 else 0) ∧
      (ls.isUnder roots name = true → ls.threshold name = level) := by
  induction hLength : name.length using Nat.strong_induction_on generalizing name with
  | _ length ih =>
      subst hLength
      by_cases hRoot : name ∈ roots
      · have hLineage : ls.lineage name = [name] := lineage_of_no_point (hRoots name hRoot)
        simp [handlers, threshold, chain, isUnder, hLineage, h.root name hRoot, hRoot]
      · rcases lineage_cases ls name with hAlone | ⟨p, hPrefix, -, hLineage⟩
        · have hUnder : ls.isUnder roots name = false := by simp [isUnder, hAlone, hRoot]
          rw [(h.bare.serves_as_above hRoot hAlone).1, hUnder]
          exact ⟨rfl, nofun⟩
        · have hUnder : ls.isUnder roots name = ls.isUnder roots p := by simp [isUnder, hLineage, hRoot]
          obtain ⟨hHandlers, hThreshold⟩ := h.bare.serves_as_above hRoot hLineage
          rw [hHandlers, hThreshold, hUnder]
          exact ih p.length (length_lt_of_above hPrefix) p rfl

/-- By their names, the loggers at and below a few are those that have one of the names or begin with it and
a point. A name in which another point follows at once is not split there. -/
theorem Listening.isUnder_iff (h : ls.Listening roots level) (hRoots : ∀ root ∈ roots, root ≠ [])
    (hPlain : ∀ root ∈ roots, ¬root ++ [point, point] <+: name) :
    ls.isUnder roots name = true ↔ ∃ root ∈ roots, name = root ∨ root ++ [point] <+: name := by
  simp only [isUnder, List.any_eq_true, List.contains_iff_mem]
  constructor
  · rintro ⟨root, hMem, hRoot⟩
    exact ⟨root, hRoot, (prefix_of_mem_lineage hMem).imp_left Eq.symm⟩
  · rintro ⟨root, hRoot, rfl | hPrefix⟩
    · exact ⟨name, List.mem_cons_self, hRoot⟩
    · have hKnown : (ls.get? root).isSome = true := by rw [h.root root hRoot]; rfl
      exact ⟨root, mem_lineage_of_begins hKnown (hRoots root hRoot) hPrefix (hPlain root hRoot), hRoot⟩

end Bearer.Log.Loggers
