import Bearer.Settings.Basic

/-! What settings are read from: every field has passed its check, or has its default. -/

namespace Bearer.Settings

theorem checkMargin_eq_ok {given : Json} {n : Int} :
    checkMargin given = .ok n ↔ checkInteger given = .ok n ∧ 0 ≤ n := by
  unfold checkMargin
  cases checkInteger given with
  | error problem => simp [bind, Except.bind]
  | ok m =>
      simp only [bind, Except.bind, pure, Except.pure]
      split
      · next hNegative =>
          simp only [reduceCtorEq, Except.ok.injEq, false_iff, not_and]
          omega
      · next hNonneg =>
          simp only [Except.ok.injEq, iff_self_and]
          omega

theorem checkText_eq_ok {given : Json} {t : Text} : checkText given = .ok t ↔ given = .string t := by
  cases given <;> simp [checkText]

/-- A value passes a check if it is what the check makes of the given one, or the default. -/
def Passes {α : Type} (given : Option Json) (default : α) (check : Json → Except Problem α)
    (value : α) : Prop :=
  match given with
  | none => value = default
  | some j => check j = .ok value

/-- Every field of settings has passed its check. -/
structure Passed (given? : Field → Option Json) (s : Settings) : Prop where
  root : Passes (given? .root) none checkOptionalText s.root
  accessToken : Passes (given? .accessToken) none checkOptionalText s.accessToken
  refreshToken : Passes (given? .refreshToken) none checkOptionalText s.refreshToken
  clientId : Passes (given? .clientId) none checkOptionalText s.clientId
  clientSecret : Passes (given? .clientSecret) none checkOptionalText s.clientSecret
  tokenUrl : Passes (given? .tokenUrl) Grant.defaultUrl checkText s.tokenUrl
  refreshMargin : Passes (given? .refreshMargin) 60 checkMargin s.refreshMargin
  httpTimeout : Passes (given? .httpTimeout) defaultTimeout checkTimeout s.httpTimeout
  deployment : Passes (given? .deployment) .development checkDeployment s.deployment
  logLevel : Passes (given? .logLevel) .info checkLevel s.logLevel

theorem passes_of_valid {α : Type} {field : Field} {given : Option Json} {default value : α}
    {check : Json → Except Problem α}
    (hValid : Checked.ofGiven field default check given = .valid value) :
    Passes given default check value := by
  cases given with
  | none => exact (Checked.valid.inj hValid).symm
  | some j => exact Checked.ofExcept_eq_valid.mp hValid

theorem passed_of_read {sources : Sources} {s : Settings} (hRead : read sources = .valid s) :
    Passed sources.given? s := by
  simp only [read, ofGiven, Checked.apply_eq_valid] at hRead
  obtain ⟨_, level, ⟨_, deployment, ⟨_, timeout, ⟨_, margin, ⟨_, url, ⟨_, secret, ⟨_, id,
    ⟨_, refresh, ⟨_, access, ⟨_, root, hMk, hRoot, rfl⟩, hAccess, rfl⟩, hRefresh, rfl⟩, hId, rfl⟩,
    hSecret, rfl⟩, hUrl, rfl⟩, hMargin, rfl⟩, hTimeout, rfl⟩, hDeployment, rfl⟩, hLevel, rfl⟩ := hRead
  cases hMk
  exact {
    root := passes_of_valid hRoot
    accessToken := passes_of_valid hAccess
    refreshToken := passes_of_valid hRefresh
    clientId := passes_of_valid hId
    clientSecret := passes_of_valid hSecret
    tokenUrl := passes_of_valid hUrl
    refreshMargin := passes_of_valid hMargin
    httpTimeout := passes_of_valid hTimeout
    deployment := passes_of_valid hDeployment
    logLevel := passes_of_valid hLevel }

/-- Wherever it comes from, a margin that was read is not below zero. -/
theorem refreshMargin_nonneg {sources : Sources} {s : Settings} (hRead : read sources = .valid s) :
    0 ≤ s.refreshMargin := by
  have hMargin := (passed_of_read hRead).refreshMargin
  unfold Passes at hMargin
  split at hMargin
  · omega
  · exact (checkMargin_eq_ok.mp hMargin).2

/-- The settings that nobody has given anything for. -/
def byDefault : Settings where
  root := none
  accessToken := none
  refreshToken := none
  clientId := none
  clientSecret := none
  tokenUrl := Grant.defaultUrl
  refreshMargin := 60
  httpTimeout := defaultTimeout
  deployment := .development
  logLevel := .info

theorem ofGiven_none : ofGiven (fun _ => none) = .valid byDefault := rfl

/-- Every default passes the check of its own field. -/
theorem byDefault_checked :
    checkOptionalText .null = .ok byDefault.root ∧ checkText (.string Grant.defaultUrl) = .ok byDefault.tokenUrl ∧
      checkMargin (.int byDefault.refreshMargin) = .ok byDefault.refreshMargin ∧
      checkTimeout (.float byDefault.httpTimeout) = .ok byDefault.httpTimeout ∧
      checkDeployment (.string byDefault.deployment.name) = .ok byDefault.deployment ∧
      checkLevel (.string byDefault.logLevel.name) = .ok byDefault.logLevel :=
  ⟨rfl, rfl, rfl, rfl, rfl, rfl⟩

/-- Without variables the keywords are all that counts. -/
theorem read_of_keywords (keywords : Entries Json) :
    read { keywords } = ofGiven fun f => keywords.get? f.name := by
  have hFile : Variables.read [] [] = [] := by decide +kernel
  unfold read
  congr 1
  funext f
  simp only [Sources.given?, Option.getD_none, hFile, lookup?, List.reverse_nil, List.find?_nil,
    Option.map_none, Option.bind_none]
  cases keywords.get? f.name <;> rfl

/-- Without a file the variables of the environment are all that counts beside the keywords. -/
theorem read_of_environment (environment : Entries Text) :
    read { environment } = ofGiven fun f => (lookup? f.variableName environment).map .string := by
  have hFile : Variables.read environment [] = [] := by
    have hNone : Variables.assignments (Variables.normalizeBreaks []) = [] := by decide +kernel
    rw [Variables.read, hNone]
    rfl
  unfold read
  congr 1
  funext f
  simp only [Sources.given?, Entries.get?, Option.getD_none, hFile]
  cases lookup? f.variableName environment <;> rfl

/-- A root that is empty is left out of the options, and stands for the root that is not set. -/
theorem root_of_options (s : Settings) : (s.options.get? "root").getD [] = s.root.getD [] := by
  unfold options
  rw [List.filterMap_cons]
  generalize hRest : List.filterMap _ _ = rest
  have hNone : Entries.get? "root" rest = none := by
    apply Entries.get?_eq_none
    rintro ⟨key, text⟩ hMem
    rw [← hRest, List.mem_filterMap] at hMem
    obtain ⟨⟨field, value⟩, hField, hPresent⟩ := hMem
    have hName : field.name ≠ "root" := by
      simp only [List.mem_cons, Prod.mk.injEq, List.not_mem_nil, or_false] at hField
      rcases hField with ⟨rfl, -⟩ | ⟨rfl, -⟩ | ⟨rfl, -⟩ | ⟨rfl, -⟩ <;> decide
    rcases value with _ | _ | ⟨c, t⟩
    · cases hPresent
    · cases hPresent
    · cases hPresent
      exact hName
  rcases s.root with _ | _ | ⟨c, t⟩
  · simp [hNone]
  · simp [hNone]
  · simp [Entries.get?, Field.name]

end Bearer.Settings
