import Bearer.Proofs.Settings.Reading
import Mathlib.Data.List.Basic

/-! The issues that keep settings from being valid, and the text that tells of them. -/

namespace Bearer

namespace Text

theorem join_cons (separator head : Text) (parts : List Text) :
    join separator (head :: parts) = head ++ parts.flatMap (separator ++ ·) := by
  induction parts generalizing head with
  | nil => simp [join]
  | cons part parts ih =>
      rw [join, List.intercalate_cons_cons, ← join, ih, List.flatMap_cons]
      simp only [List.append_assoc]

/-- A part of a text takes no more than a number of bytes, and every longer part of its kind takes more. -/
def Longest (bytes : Nat) (IsPart : Text → Prop) (part : Text) : Prop :=
  IsPart part ∧ Utf8.length part ≤ bytes ∧
    ∀ other, IsPart other → Utf8.length other ≤ bytes → other.length ≤ part.length

end Text

namespace Utf8

theorem length_cons (c : CodePoint) (t : Text) : length (c :: t) = size c + length t := rfl

theorem length_append (t t' : Text) : length (t ++ t') = length t + length t' := by
  induction t with
  | nil => exact (Nat.zero_add _).symm
  | cons c t ih => rw [List.cons_append, length_cons, length_cons, ih, Nat.add_assoc]

theorem length_reverse (t : Text) : length t.reverse = length t := by
  induction t with
  | nil => rfl
  | cons c t ih =>
      rw [List.reverse_cons, length_append, ih, length_cons, length_cons, Nat.add_comm]
      rfl

end Utf8

namespace Settings

namespace Issue

/-- A description as an issue shows it: whole up to 50 bytes, and else its beginning and its end. -/
inductive Shown (t : Text) : Text → Prop where
  | whole (hShort : Utf8.length t ≤ 50) : Shown t t
  | cut (before after : Text) (hLong : 50 < Utf8.length t) (hBefore : Text.Longest 25 (· <+: t) before)
      (hAfter : Text.Longest 24 (· <:+ t) after) : Shown t (before ++ ("..." : Text) ++ after)

theorem longest_headWithin (bytes : Nat) (t : Text) : Text.Longest bytes (· <+: t) (headWithin bytes t) := by
  induction t generalizing bytes with
  | nil => exact ⟨List.prefix_rfl, Nat.zero_le _, fun other hPart _ => hPart.length_le⟩
  | cons c t ih =>
      rw [headWithin]
      split
      · next hFits =>
          obtain ⟨hPart, hBytes, hLongest⟩ := ih (bytes - Utf8.size c)
          refine ⟨List.cons_prefix_cons.mpr ⟨rfl, hPart⟩, ?_, fun other hOther hSmall => ?_⟩
          · rw [Utf8.length_cons]
            omega
          · cases other with
            | nil => exact Nat.zero_le _
            | cons d rest =>
                obtain ⟨rfl, hRest⟩ := List.cons_prefix_cons.mp hOther
                rw [Utf8.length_cons] at hSmall
                exact Nat.succ_le_succ (hLongest rest hRest (by omega))
      · next hWide =>
          refine ⟨List.nil_prefix, Nat.zero_le _, fun other hOther hSmall => ?_⟩
          cases other with
          | nil => exact Nat.zero_le _
          | cons d rest =>
              obtain ⟨rfl, -⟩ := List.cons_prefix_cons.mp hOther
              rw [Utf8.length_cons] at hSmall
              omega

theorem longest_reverse {bytes : Nat} {t part : Text} (h : Text.Longest bytes (· <+: t.reverse) part) :
    Text.Longest bytes (· <:+ t) part.reverse := by
  obtain ⟨hPart, hBytes, hLongest⟩ := h
  refine ⟨?_, Nat.le_trans (Nat.le_of_eq (Utf8.length_reverse part)) hBytes, fun other hOther hSmall => ?_⟩
  · exact List.reverse_prefix.mp ((List.reverse_reverse part).symm ▸ hPart)
  · rw [List.length_reverse, ← @List.length_reverse _ other]
    exact hLongest _ (List.reverse_prefix.mpr hOther) (by rwa [Utf8.length_reverse])

theorem shown_shortened (t : Text) : Shown t (shortened t) := by
  unfold shortened
  split
  · next hShort => exact .whole hShort
  · next hLong =>
      exact .cut _ _ (Nat.not_le.mp hLong) (longest_headWithin 25 t) (longest_reverse (longest_headWithin 24 t.reverse))

/-- The line that refers to more about an issue, if there are pages to refer to, behind a line break. -/
inductive Refers (w : Wording) (i : Issue) : Text → Prop where
  | nowhere (hNone : w.page? = none) : Refers w i []
  | page (page : Text → Text) (hPage : w.page? = some page) :
      Refers w i (("\n    For further information visit " : Text) ++ page i.problem.code)

/-- The lines that tell of issues one after the other, each line behind a line break: the field, what is wrong with
its value, and where to read more. -/
inductive Told (w : Wording) : List Issue → Text → Prop where
  | nothing : Told w [] []
  | issue (i : Issue) (issues : List Issue) (value more rest : Text)
      (hValue : Shown (Log.Datum.ofJson i.given).quoted value) (hMore : Refers w i more) (hRest : Told w issues rest) :
      Told w (i :: issues) (("\n" : Text) ++ i.field.name ++ ("\n  " : Text) ++ i.problem.message w.order
        ++ (" [type=" : Text) ++ i.problem.code ++ (", input_value=" : Text) ++ value
        ++ (", input_type=" : Text) ++ typeName i.given ++ ("]" : Text) ++ more ++ rest)

/-- The line in front, which counts the issues. -/
def headline : Nat → Text
  | 1 => "1 validation error for Settings"
  | count => Decimal.ofNat count ++ (" validation errors for Settings" : Text)

/-- The text that tells of issues. -/
def Describes (w : Wording) (issues : List Issue) (text : Text) : Prop :=
  ∃ rest, Told w issues rest ∧ text = headline issues.length ++ rest

theorem refers_reference (w : Wording) (i : Issue) : Refers w i (reference w i) := by
  unfold reference
  split
  · next hNone => exact .nowhere hNone
  · next page hPage => exact .page page hPage

theorem told_describe (w : Wording) (issues : List Issue) :
    Told w issues ((issues.map (describe w)).flatMap (("\n" : Text) ++ ·)) := by
  induction issues with
  | nil => exact .nothing
  | cons i issues ih =>
      have hTold := Told.issue i issues _ _ _ (shown_shortened _) (refers_reference w i) ih
      rw [List.map_cons, List.flatMap_cons, describe]
      simp only [List.append_assoc] at hTold ⊢
      exact hTold

theorem headline_eq (count : Nat) : headline count = Decimal.ofNat count
    ++ (if count = 1 then " validation error for Settings" else " validation errors for Settings" : Text) := by
  unfold headline
  split
  · decide +kernel
  · next hOther => rw [if_neg hOther]

theorem describes_describeAll (w : Wording) (issues : List Issue) : Describes w issues (describeAll w issues) :=
  ⟨_, told_describe w issues, by rw [describeAll, Text.join_cons, headline_eq]⟩

end Issue

/-- All fields, in the order in which they are checked. -/
def Field.all : List Field :=
  [root, accessToken, refreshToken, clientId, clientSecret, tokenUrl, refreshMargin, httpTimeout, deployment, logLevel]

/-- What a check refuses a value for. -/
def refusal? {α : Type} : Except Problem α → Option Problem
  | .ok _ => none
  | .error problem => some problem

/-- What is wrong with a value for a field. -/
def problem? (given : Json) : Field → Option Problem
  | .root | .accessToken | .refreshToken | .clientId | .clientSecret => refusal? (checkOptionalText given)
  | .tokenUrl => refusal? (checkText given)
  | .refreshMargin => refusal? (checkMargin given)
  | .httpTimeout => refusal? (checkTimeout given)
  | .deployment => refusal? (checkDeployment given)
  | .logLevel => refusal? (checkLevel given)

/-- The issue with what is given for a field. -/
def issue? (given? : Field → Option Json) (f : Field) : Option Issue :=
  (given? f).bind fun given => (problem? given f).map fun problem => ⟨f, problem, given⟩

namespace Checked

variable {α β : Type}

/-- The issues found on the way to a value. -/
def issues : Checked α → List Issue
  | valid _ => []
  | invalid issues => issues

theorem issues_apply (f : Checked (α → β)) (a : Checked α) : (f.apply a).issues = f.issues ++ a.issues := by
  cases f <;> cases a <;> simp [apply, issues]

/-- There is an issue where there is no value. -/
def Explained (c : Checked α) : Prop := ∀ issues, c = invalid issues → issues ≠ []

theorem Explained.apply {f : Checked (α → β)} {a : Checked α} (hf : f.Explained) (ha : a.Explained) :
    (f.apply a).Explained := by
  intro issues hInvalid
  cases f <;> cases a <;> cases hInvalid
  · exact ha _ rfl
  · exact hf _ rfl
  · exact List.append_ne_nil_of_left_ne_nil (hf _ rfl) _

theorem issues_ofGiven (field : Field) (default : α) (check : Json → Except Problem α) (given? : Option Json) :
    (ofGiven field default check given?).issues = (given?.bind fun given =>
      (refusal? (check given)).map fun problem => (⟨field, problem, given⟩ : Issue)).toList := by
  cases given? with
  | none => rfl
  | some given => cases hCheck : check given <;> simp [ofGiven, hCheck, ofExcept, issues, refusal?]

theorem explained_ofGiven (field : Field) (default : α) (check : Json → Except Problem α) (given? : Option Json) :
    (ofGiven field default check given?).Explained := by
  intro issues hInvalid
  cases given? with
  | none => cases hInvalid
  | some given =>
      cases hCheck : check given with
      | ok a => simp [ofGiven, hCheck, ofExcept] at hInvalid
      | error problem =>
          simp only [ofGiven, hCheck, ofExcept, invalid.injEq] at hInvalid
          simp [← hInvalid]

end Checked

/-- Settings that are not valid have an issue, and all issues are told, field after field. -/
theorem issues_of_read {sources : Sources} {issues : List Issue} (hRead : read sources = .invalid issues) :
    issues ≠ [] ∧ issues = Field.all.filterMap (issue? sources.given?) := by
  constructor
  · refine (?_ : (read sources).Explained) issues hRead
    unfold read ofGiven
    iterate 10 refine Checked.Explained.apply ?_ (Checked.explained_ofGiven _ _ _ _)
    exact nofun
  · have hIssues : issues = (read sources).issues := by rw [hRead, Checked.issues]
    have hAll : Field.all.filterMap (issue? sources.given?) =
        Field.all.flatMap fun f => (issue? sources.given? f).toList := List.filterMap_eq_flatMap_toList ..
    rw [hIssues, hAll, read, ofGiven]
    simp only [Checked.issues_apply, Checked.issues_ofGiven, List.append_assoc]
    simp only [Field.all, List.flatMap_cons, List.flatMap_nil, List.append_nil]
    rfl

end Settings

end Bearer
