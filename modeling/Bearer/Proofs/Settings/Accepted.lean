import Bearer.Proofs.Except
import Bearer.Proofs.Settings.Reading

/-! Whichever source gives a value, what settings were read with has passed the check of its field. The margin is not
below zero, the deployment and the level of the log are known ones. -/

namespace Bearer

namespace Binary64

/-- A number above zero, the infinite one included. -/
def Positive (x : Binary64) : Prop := x.negative = false ∧ 0 < x.magnitude ∧ x.magnitude ≤ 2047 * unit

theorem positive_iff {x : Binary64} : x.Positive ↔ x.isNonPositive = false ∧ x.isNaN = false := by
  obtain ⟨negative, exponent, fraction⟩ := x
  simp only [Positive, magnitude, isNonPositive, isNaN, isZero, unit]
  cases negative with
  | false =>
      simp
      omega
  | true => simp

theorem isNaN_ofMagnitude (negative : Bool) (bits : Nat) : (ofMagnitude negative bits).isNaN = false := by
  unfold ofMagnitude
  split
  · next hFinite =>
      have hExponent : bits / unit ≠ 2047 := by
        simp only [unit] at hFinite ⊢
        omega
      simp [isNaN, hExponent]
  · rfl

theorem isNaN_ofRatio (negative : Bool) (num den : Nat) : (ofRatio negative num den).isNaN = false := by
  unfold ofRatio
  split
  · exact isNaN_ofMagnitude negative 0
  · exact isNaN_ofMagnitude negative _

theorem isNaN_ofInt (n : Int) : (ofInt n).isNaN = false := isNaN_ofRatio _ _ _

theorem isNaN_ofDecimal (negative : Bool) (number : Nat) (exponent : Int) :
    (ofDecimal negative number exponent).isNaN = false := by
  unfold ofDecimal
  split
  · exact isNaN_ofMagnitude negative 0
  · dsimp only
    split
    · rfl
    · split
      · exact isNaN_ofMagnitude negative 0
      · cases exponent with
        | ofNat e => exact isNaN_ofRatio _ _ _
        | negSucc e => exact isNaN_ofRatio _ _ _

end Binary64

namespace Decimal

/-- The name of what is no number, in any case and perhaps behind a sign. -/
def NamesNaN (t : Text) : Prop := lowerAscii (takeSign t).2 = Text.ofString "nan"

theorem isNaN_of_readMagnitude {negative : Bool} {t : Text} {x : Binary64}
    (hRead : readMagnitude? negative t = some x) : x.isNaN = false := by
  unfold readMagnitude? at hRead
  dsimp only at hRead
  split at hRead
  -- behind a point and without one
  all_goals
    split at hRead
    · cases hRead
    · split at hRead
      · cases hRead
        exact Binary64.isNaN_ofDecimal _ _ _
      · split at hRead
        · obtain ⟨exponent, -, rfl⟩ := Option.map_eq_some_iff.mp hRead
          exact Binary64.isNaN_ofDecimal _ _ _
        · cases hRead
      · cases hRead

theorem isNaN_of_readSigned {t : Text} {x : Binary64} (hRead : readSigned? t = some x) :
    x.isNaN = true ↔ NamesNaN t := by
  unfold readSigned? at hRead
  unfold NamesNaN
  dsimp only at hRead
  split at hRead
  · next hInfinite =>
      cases hRead
      have hOther : lowerAscii (takeSign t).2 ≠ Text.ofString "nan" := by
        rcases hInfinite with hName | hName <;> rw [hName] <;> decide
      cases (takeSign t).1 <;> simp [hOther, Binary64.isNaN, Binary64.infinity]
  · split at hRead
    · next hName =>
        cases hRead
        simp only [hName, iff_true]
        rfl
    · next hName =>
        rw [isNaN_of_readMagnitude hRead]
        simp [hName]

theorem readSigned_of_namesNaN {t : Text} (hName : NamesNaN t) : ∃ x, readSigned? t = some x := by
  unfold NamesNaN at hName
  unfold readSigned?
  generalize takeSign t = split at hName ⊢
  obtain ⟨negative, body⟩ := split
  dsimp only at hName ⊢
  rw [hName, if_neg (by decide), if_pos rfl]
  exact ⟨_, rfl⟩

/-- A text is read as what is no number if it names it, or does so without the underscores that kept
it from being read. -/
theorem isNaN_of_readFloat {t : Text} {x : Binary64} (hRead : readFloat? t = some x) :
    x.isNaN = true ↔ NamesNaN (t.trim isBlank) ∨
      readSigned? (t.trim isBlank) = none ∧ ∃ bare, withoutUnderscores? t = some bare ∧ NamesNaN bare := by
  unfold readFloat? at hRead
  cases hSigned : readSigned? (t.trim isBlank) with
  | some y =>
      rw [hSigned] at hRead
      cases hRead
      simp [isNaN_of_readSigned hSigned]
  | none =>
      have hOther : ¬NamesNaN (t.trim isBlank) := by
        intro hName
        obtain ⟨y, hSome⟩ := readSigned_of_namesNaN hName
        rw [hSigned] at hSome
        cases hSome
      rw [hSigned] at hRead
      dsimp only at hRead
      split at hRead
      · obtain ⟨bare, hBare, hRead⟩ := Option.bind_eq_some_iff.mp hRead
        simp [hOther, hBare, isNaN_of_readSigned hRead]
      · cases hRead

end Decimal

namespace Variables

theorem statements_nil : statements [] = [] := by
  rw [statements]
  rfl

theorem statements_of_takeStatement {t rest : Text} {s : Statement}
    (hTake : takeStatement (t.dropWhile isBlank) = .ok (s, rest))
    (hText : (t.dropWhile isBlank).isEmpty = false) (hLess : rest.length < t.length) :
    statements t = s :: statements rest := by
  rw [statements]
  simp only [hTake, hText, hLess]
  rfl

theorem expand_of_plain {value : Text → Option Text} {t : Text} (hPlain : .scalar '$' ∉ t) :
    expand value t = t := by
  induction t with
  | nil => rw [expand]
  | cons c rest ih =>
      obtain ⟨hHead, hRest⟩ := not_or.mp (fun h => hPlain (List.mem_cons.mpr h))
      rw [expand, if_neg (Ne.symm hHead), ih hRest]

end Variables

theorem Log.Level.name_mem_of_isStandard {l : Level} (hStandard : l.isStandard = true) :
    l.name ∈ (["DEBUG", "INFO", "WARNING", "ERROR", "CRITICAL"] : List Text) := by
  cases l with
  | trace | success => cases hStandard
  | debug | info | warning | error | critical => decide

theorem Deployment.name_mem (d : Deployment) :
    d.name ∈ (["development", "staging", "production"] : List Text) := by
  cases d <;> decide

namespace Settings

/-- A value that stands for what is no number. -/
inductive StandsForNaN : Json → Prop where
  | number (x : Binary64) (hNaN : x.isNaN = true) : StandsForNaN (.float x)
  | name (t : Text) (hName : Decimal.NamesNaN (t.trim Decimal.isBlank)) : StandsForNaN (.string t)
  | spaced (t bare : Text) (hUnread : Decimal.readSigned? (t.trim Decimal.isBlank) = none)
      (hBare : Decimal.withoutUnderscores? t = some bare) (hName : Decimal.NamesNaN bare) :
      StandsForNaN (.string t)

theorem isNaN_of_checkNumber {given : Json} {x : Binary64} (hCheck : checkNumber given = .ok x) :
    x.isNaN = true ↔ StandsForNaN given := by
  unfold checkNumber at hCheck
  split at hCheck
  · next y =>
      cases hCheck
      exact ⟨.number x, fun h => by cases h; assumption⟩
  · next n =>
      split at hCheck
      · cases hCheck
        rw [Binary64.isNaN_ofInt]
        exact ⟨nofun, nofun⟩
      · cases hCheck
  · next b =>
      cases hCheck
      rw [Binary64.isNaN_ofInt]
      exact ⟨nofun, nofun⟩
  · next t =>
      split at hCheck
      · cases hCheck
      · cases hRead : Decimal.readFloat? t with
        | none => rw [hRead] at hCheck; cases hCheck
        | some y =>
            rw [hRead] at hCheck
            cases hCheck
            rw [Decimal.isNaN_of_readFloat hRead]
            constructor
            · rintro (hName | ⟨hUnread, bare, hBare, hName⟩)
              · exact .name t hName
              · exact .spaced t bare hUnread hBare hName
            · intro hStands
              cases hStands with
              | name _ hName => exact .inl hName
              | spaced _ bare hUnread hBare hName => exact .inr ⟨hUnread, bare, hBare, hName⟩
  · cases hCheck

theorem checkTimeout_eq_ok {given : Json} {x : Binary64} :
    checkTimeout given = .ok x ↔ checkNumber given = .ok x ∧ x.isNonPositive = false := by
  unfold checkTimeout
  rw [bind_eq_ok]
  constructor
  · rintro ⟨y, hNumber, hPositive⟩
    split at hPositive
    · cases hPositive
    · next hAbove =>
        cases hPositive
        exact ⟨hNumber, Bool.not_eq_true _ ▸ hAbove⟩
  · rintro ⟨hNumber, hAbove⟩
    exact ⟨x, hNumber, by rw [hAbove]; rfl⟩

theorem checkDeployment_eq_ok {given : Json} {d : Deployment} (hCheck : checkDeployment given = .ok d) :
    given = .string d.name := by
  obtain ⟨name, hText, hFound⟩ := bind_eq_ok.mp hCheck
  split at hFound
  · next hName =>
      cases hFound
      rw [checkText_eq_ok.mp hText, ← Deployment.name_of_ofName? hName]
  · cases hFound

theorem checkLevel_eq_ok {given : Json} {l : Log.Level} (hCheck : checkLevel given = .ok l) :
    l.isStandard = true ∧ ∃ t, given = .string t ∧ t.toUpper = l.name := by
  obtain ⟨name, hText, hFound⟩ := bind_eq_ok.mp hCheck
  split at hFound
  · next hName =>
      split at hFound
      · next hStandard =>
          cases hFound
          exact ⟨hStandard, name, checkText_eq_ok.mp hText,
            (Log.Level.name_of_ofName? hName).symm⟩
      · cases hFound
  · cases hFound

theorem timeout_of_passes {given : Option Json} {x : Binary64}
    (hPasses : Passes given defaultTimeout checkTimeout x) :
    (x.Positive ↔ ∀ j, given = some j → ¬StandsForNaN j) ∧ (x.Positive ∨ x.isNaN = true) := by
  cases given with
  | none =>
      have hPositive : x.Positive := by
        rw [show x = defaultTimeout from hPasses]
        exact Binary64.positive_iff.mpr ⟨by rfl, by rfl⟩
      exact ⟨iff_of_true hPositive nofun, .inl hPositive⟩
  | some j =>
      obtain ⟨hNumber, hAbove⟩ := checkTimeout_eq_ok.mp hPasses
      have hStands := isNaN_of_checkNumber hNumber
      rw [Binary64.positive_iff]
      simp only [hAbove, true_and, Option.some.injEq, forall_eq', ← hStands, Bool.not_eq_true]
      exact (Bool.eq_false_or_eq_true x.isNaN).symm

theorem level_of_passes {given : Option Json} {l : Log.Level} (hPasses : Passes given .info checkLevel l) :
    l.isStandard = true ∧ ∀ j, given = some j → ∃ t, j = .string t ∧ t.toUpper = l.name := by
  cases given with
  | none =>
      rw [show l = .info from hPasses]
      exact ⟨rfl, nofun⟩
  | some j =>
      obtain ⟨hStandard, hName⟩ := checkLevel_eq_ok hPasses
      refine ⟨hStandard, fun j' hSame => ?_⟩
      cases hSame
      exact hName

/-- Settings that were read satisfy what is asked of their fields, whichever source gave the values,
but for a timeout that is no number: it is above zero exactly if the given value, if there is one,
does not stand for what is no number. -/
theorem accepted_fields {sources : Sources} {s : Settings} (hRead : read sources = .valid s) :
    (s.httpTimeout.Positive ↔ ∀ given, sources.given? .httpTimeout = some given → ¬StandsForNaN given) ∧
    (s.httpTimeout.Positive ∨ s.httpTimeout.isNaN = true) ∧
    0 ≤ s.refreshMargin ∧
    s.deployment.name ∈ (["development", "staging", "production"] : List Text) ∧
    (∀ given, sources.given? .deployment = some given → given = .string s.deployment.name) ∧
    s.logLevel.name ∈ (["DEBUG", "INFO", "WARNING", "ERROR", "CRITICAL"] : List Text) ∧
    (∀ given, sources.given? .logLevel = some given →
      ∃ t, given = .string t ∧ t.toUpper = s.logLevel.name) := by
  have hPassed := passed_of_read hRead
  obtain ⟨hTimeout, hEither⟩ := timeout_of_passes hPassed.httpTimeout
  obtain ⟨hStandard, hLevel⟩ := level_of_passes hPassed.logLevel
  have hDeployment : ∀ given, sources.given? .deployment = some given → given = .string s.deployment.name := by
    intro given hGiven
    have hPasses := hPassed.deployment
    rw [hGiven] at hPasses
    exact checkDeployment_eq_ok hPasses
  exact ⟨hTimeout, hEither, refreshMargin_nonneg hRead, s.deployment.name_mem, hDeployment,
    Log.Level.name_mem_of_isStandard hStandard, hLevel⟩

/-- Values from a keyword, from the environment and from a file. -/
def threeSources : Sources where
  keywords := [("http_timeout", .string " +Infinity ")]
  environment := [("DROPBOX_HTTP_TIMEOUT", "nan"), ("dropbox_refresh_margin_seconds", "0")]
  file := some "DROPBOX_LOG_LEVEL=warn\u0131ng\n"

/-- The settings read from them. -/
def threeSettings : Settings :=
  { byDefault with refreshMargin := 0, httpTimeout := Binary64.infinity false, logLevel := .warning }

theorem read_file :
    Variables.read threeSources.environment (threeSources.file.getD [])
      = [(("DROPBOX_LOG_LEVEL" : Text), some ("warn\u0131ng" : Text))] := by
  have hTake : Variables.takeStatement ((Text.ofString "DROPBOX_LOG_LEVEL=warn\u0131ng\n").dropWhile
      Variables.isBlank) = .ok (⟨some "DROPBOX_LOG_LEVEL", some "warn\u0131ng"⟩, []) := by rfl
  have hBreaks : Variables.normalizeBreaks "DROPBOX_LOG_LEVEL=warn\u0131ng\n"
      = "DROPBOX_LOG_LEVEL=warn\u0131ng\n" := by rfl
  have hPlain : CodePoint.scalar '$' ∉ Text.ofString "warn\u0131ng" := by decide
  rw [Variables.read, Variables.assignments, threeSources, Option.getD_some, hBreaks,
    Variables.statements_of_takeStatement hTake (by rfl) (by decide), Variables.statements_nil]
  simp [Entries.put, Variables.expand_of_plain hPlain]

theorem given_threeSources (f : Field) : threeSources.given? f = match f with
    | .httpTimeout => some (.string " +Infinity ")
    | .refreshMargin => some (.string "0")
    | .logLevel => some (.string "warn\u0131ng")
    | _ => none := by
  unfold Sources.given?
  rw [read_file]
  cases f <;> rfl

theorem read_threeSources : read threeSources = .valid threeSettings := by
  unfold read
  rw [funext given_threeSources]
  rfl

/-- There the keyword gives the timeout, the environment the margin and the file the level of the log. -/
theorem accepted_from_three_sources :
    read threeSources = .valid threeSettings ∧ threeSettings.httpTimeout.Positive ∧
      0 ≤ threeSettings.refreshMargin ∧ ("warn\u0131ng" : Text).toUpper = threeSettings.logLevel.name := by
  obtain ⟨hTimeout, -, hMargin, -, -, -, hLevel⟩ := accepted_fields read_threeSources
  refine ⟨read_threeSources, hTimeout.mpr ?_, hMargin, ?_⟩
  · intro given hGiven hStands
    cases Option.some.inj ((given_threeSources .httpTimeout).symm.trans hGiven)
    cases hStands with
    | name _ hName => exact absurd hName (by unfold Decimal.NamesNaN; decide)
    | spaced _ bare hUnread _ _ => exact absurd hUnread (by decide)
  · obtain ⟨t, hText, hUpper⟩ := hLevel _ (given_threeSources .logLevel)
    cases hText
    exact hUpper

/-- A timeout that is given as `nan` passes, though it is not above zero. -/
theorem nan_timeout_accepted :
    ∃ s, read { environment := [("DROPBOX_HTTP_TIMEOUT", "nan")] } = .valid s ∧
      s.httpTimeout.isNaN = true ∧ ¬s.httpTimeout.Positive := by
  rw [read_of_environment]
  refine ⟨_, by rfl, by rfl, ?_⟩
  rw [Binary64.positive_iff]
  decide

end Settings

end Bearer
