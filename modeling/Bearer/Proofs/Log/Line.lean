import Bearer.Http.Message
import Bearer.Log.Record
import Bearer.Proofs.Entries
import Bearer.Proofs.Json.Encoding

/-! The line of a record is printable ASCII, so nothing in a message, a traceback or a value breaks it. -/

namespace Bearer

namespace Json

/-- A value that is printed in a style and read, with at most `depth` containers open, is the same. -/
structure Stable (style : Style) (depth : Nat) (v : Json) : Prop where
  plain : Plain depth v
  carried : v.carried style = v

variable {style : Style} {depth : Nat}

theorem Stable.string (style : Style) {s : Text} (hString : s.IsScalar) : Stable style depth (.string s) :=
  ⟨.string s, congrArg Json.string (style.carried_of_isScalar hString)⟩

theorem Stable.array {items : List Json} (hItems : ∀ v ∈ items, Stable style depth v) :
    Stable style (depth + 1) (.array items) where
  plain := .array fun v hv => (hItems v hv).plain
  carried := by
    rw [Json.carried, carriedItems_eq_map, List.map_congr_left fun v hv => (hItems v hv).carried, List.map_id']

theorem Stable.object {members : Entries Json} (hNodup : members.keys.Nodup)
    (hNames : ∀ m ∈ members, m.1.IsScalar) (hValues : ∀ m ∈ members, Stable style depth m.2) :
    Stable style (depth + 1) (.object members) where
  plain := .object fun m hm => (hValues m hm).plain
  carried := by
    have hSame : ∀ m ∈ members, (style.carried m.1, m.2.carried style) = m := fun m hm => by
      rw [style.carried_of_isScalar (hNames m hm), (hValues m hm).carried]
    rw [Json.carried, carriedMembers_eq_map, List.map_congr_left hSame, List.map_id', Entries.ofList_of_nodup hNodup]

/-- The compact text of an object that has members is written as UTF-8 and read as the object. -/
theorem Stable.ofBytes_compact {m : Text × Json} {members : Entries Json}
    (h : Stable {} (depth + 1) (.object (m :: members))) :
    ∃ bytes, Utf8.encode (compact (.object (m :: members))) = .ok bytes ∧
      ofBytes bytes (depth + 1) = .ok (.object (m :: members)) := by
  have hValues : ∀ m' ∈ m :: members, Plain depth m'.2 := by
    cases h.plain with
    | object hMembers => exact hMembers
  obtain ⟨bytes, hEncode, hDecode, -⟩ := decode_print {} hValues (.inl rfl)
  have hRead := read_print {} h.plain (.none [])
  rw [List.append_nil, h.carried] at hRead
  exact ⟨bytes, hEncode, ofBytes_eq_ok_iff.mpr ⟨_, hDecode, read_eq_ok_iff.mp hRead⟩⟩

end Json

namespace Log

/-- The values that a line shows and gives back: they hold no floating-point number, no integer of too many digits
and no surrogate, no mapping in them has a key twice, and at most `depth` lists and mappings are nested. -/
inductive Datum.Loggable : (depth : Nat) → Datum → Prop where
  | null {depth : Nat} : Loggable depth .null
  | bool {depth : Nat} (b : Bool) : Loggable depth (.bool b)
  | int {depth : Nat} {n : Int} (hBound : n.natAbs < 10 ^ Json.maxDigits) : Loggable depth (.int n)
  | text {depth : Nat} {t : Text} (hText : t.IsScalar) : Loggable depth (.text t)
  | instant {depth : Nat} (t : Timestamp) : Loggable depth (.instant t)
  | list {depth : Nat} {items : List Datum} (hItems : ∀ d ∈ items, Loggable depth d) :
      Loggable (depth + 1) (.list items)
  | mapping {depth : Nat} {entries : Entries Datum} (hKeys : entries.keys.Nodup)
      (hNames : ∀ entry ∈ entries, entry.1.IsScalar) (hValues : ∀ entry ∈ entries, Loggable depth entry.2) :
      Loggable (depth + 1) (.mapping entries)

namespace Datum

theorem toJsonItems_eq_map (items : List Datum) : toJsonItems items = items.map toJson := by
  induction items with
  | nil => rfl
  | cons d items ih => rw [toJsonItems, ih, List.map_cons]

theorem toJsonMembers_eq_map (entries : Entries Datum) :
    toJsonMembers entries = entries.map fun entry => (entry.1, entry.2.toJson) := by
  induction entries with
  | nil => rfl
  | cons entry entries ih =>
      rw [toJsonMembers, ih]
      rfl

theorem loggable_mapping {depth : Nat} {entries : Entries Datum} : (mapping entries).Loggable (depth + 1) ↔
    entries.keys.Nodup ∧ (∀ entry ∈ entries, entry.1.IsScalar) ∧ ∀ entry ∈ entries, entry.2.Loggable depth where
  mp h := by
    cases h with
    | mapping hKeys hNames hValues => exact ⟨hKeys, hNames, hValues⟩
  mpr h := .mapping h.1 h.2.1 h.2.2

theorem keys_toJsonMembers (entries : Entries Datum) : Entries.keys (toJsonMembers entries) = entries.keys := by
  rw [toJsonMembers_eq_map, Entries.keys, List.map_map]
  rfl

theorem mem_toJsonMembers {entries : Entries Datum} {m : Text × Json} (h : m ∈ toJsonMembers entries) :
    ∃ entry ∈ entries, (entry.1, entry.2.toJson) = m := by
  rw [toJsonMembers_eq_map] at h
  exact List.mem_map.mp h

theorem Loggable.stable (style : Json.Style) {depth : Nat} {d : Datum} (h : d.Loggable depth) :
    Json.Stable style depth d.toJson := by
  induction h with
  | null => exact ⟨.null, rfl⟩
  | bool b => exact ⟨.bool b, rfl⟩
  | int hBound => exact ⟨.int hBound, rfl⟩
  | text hText => exact .string style hText
  | instant t => exact .string style (t.isScalar_written ' ')
  | list hItems ih =>
      rw [toJson, toJsonItems_eq_map]
      exact .array (List.forall_mem_map.mpr ih)
  | @mapping _ entries hKeys hNames hValues ih =>
      refine .object (by rwa [keys_toJsonMembers]) (fun m hm => ?_) fun m hm => ?_
      · obtain ⟨entry, hEntry, rfl⟩ := mem_toJsonMembers hm
        exact hNames entry hEntry
      · obtain ⟨entry, hEntry, rfl⟩ := mem_toJsonMembers hm
        exact ih entry hEntry

end Datum

/-- No text that is shown of an exception holds a surrogate. -/
structure Exception.IsScalar (e : Exception) : Prop where
  declared : ∀ kind, e.declared = some kind → kind.name.IsScalar
  raised : ∀ kind held, e.raised = some (kind, held) → (kind.wording held).IsScalar
  traceback : ∀ t, e.traceback? = some t → t.IsScalar

theorem Exception.stable_optional (style : Json.Style) {t : Option Text} {depth : Nat}
    (h : ∀ s, t = some s → s.IsScalar) : Json.Stable style depth (optional t) := by
  cases t with
  | none => exact ⟨.null, rfl⟩
  | some s => exact .string style (h s rfl)

theorem Exception.IsScalar.stable (style : Json.Style) (depth : Nat) {e : Exception} (h : e.IsScalar) :
    Json.Stable style (depth + 1) e.toJson := by
  have hType : ∀ s, e.declared.map (·.name) = some s → s.IsScalar := by
    intro s hs
    obtain ⟨kind, hKind, rfl⟩ := Option.map_eq_some_iff.mp hs
    exact h.declared kind hKind
  have hValue : ∀ s, (e.raised.map fun held => held.1.wording held.2) = some s → s.IsScalar := by
    intro s hs
    obtain ⟨⟨kind, held⟩, hRaised, rfl⟩ := Option.map_eq_some_iff.mp hs
    exact h.raised kind held hRaised
  refine .object (show (["type", "value", "traceback"] : List Text).Nodup by decide) ?_ ?_
  · simp only [List.forall_mem_cons]
    decide
  · simp only [List.forall_mem_cons]
    exact ⟨stable_optional style hType, stable_optional style hValue, stable_optional style h.traceback,
      List.forall_mem_nil _⟩

/-- No text of a record holds a surrogate, those of its exception included. -/
structure Record.IsScalar (r : Record) : Prop where
  severity : r.severity.IsScalar
  message : r.message.IsScalar
  logger : r.logger.IsScalar
  exception : ∀ e, r.exception = some e → e.IsScalar

namespace Record

/-- The members that a record has by itself. -/
def head (r : Record) : Entries Json :=
  ([("severity", .string r.severity), ("message", .string r.message), ("time", .string r.time.iso),
    ("logger", .string r.logger)] : Entries Json) ++
    match r.exception with
    | none => []
    | some e => [("exception", e.toJson)]

theorem nodup_keys_head (r : Record) : r.head.keys.Nodup := by
  unfold head
  cases r.exception with
  | none => exact show (["severity", "message", "time", "logger"] : List Text).Nodup by decide
  | some e => exact show (["severity", "message", "time", "logger", "exception"] : List Text).Nodup by decide

theorem members_eq_putAll (r : Record) :
    r.members = r.head.putAll (r.extra.flatMap fun entry => flatten entry.1 entry.2) := by
  unfold members head
  cases r.exception with
  | none => rfl
  | some e => rfl

/-- The members of a record are those that it has by itself, and then the values that were passed are set. -/
theorem members_of_passed (r : Record) {passed : Option (Entries Datum)}
    (hExtra : r.extra = (passed.map fun entries => (("extra" : Text), Datum.mapping entries)).toList) :
    r.members = r.head.putAll (Datum.toJsonMembers (passed.getD [])) := by
  rw [members_eq_putAll, hExtra]
  cases passed with
  | none => rfl
  | some entries => exact congrArg r.head.putAll (List.append_nil _)

/-- The members of a record are those that it has by itself, with the values laid over them that were passed. -/
theorem members_eq_overlay (r : Record) {passed : Option (Entries Datum)}
    (hExtra : r.extra = (passed.map fun entries => (("extra" : Text), Datum.mapping entries)).toList)
    (hKeys : (passed.getD []).keys.Nodup) :
    r.members = r.head.overlay (Datum.toJsonMembers (passed.getD [])) := by
  have hMore : (Entries.keys (Datum.toJsonMembers (passed.getD []))).Nodup := by rwa [Datum.keys_toJsonMembers]
  rw [r.members_of_passed hExtra, Entries.putAll_eq_overlay r.nodup_keys_head hMore]

theorem IsScalar.stable_head {r : Record} (h : r.IsScalar) (style : Json.Style) (depth : Nat) :
    ∀ m ∈ r.head, m.1.IsScalar ∧ Json.Stable style (depth + 1) m.2 := by
  have hBase : ∀ m ∈ r.base, m.1.IsScalar ∧ Json.Stable style (depth + 1) m.2 := by
    simp only [base, List.forall_mem_cons]
    exact ⟨⟨by decide, .string style h.severity⟩, ⟨by decide, .string style h.message⟩,
      ⟨by decide, .string style (r.time.isScalar_written 'T')⟩, ⟨by decide, .string style h.logger⟩,
      List.forall_mem_nil _⟩
  refine List.forall_mem_append.mpr ⟨hBase, ?_⟩
  cases hException : r.exception with
  | none => exact List.forall_mem_nil _
  | some e =>
      have hStable := (h.exception e hException).stable style depth
      exact List.forall_mem_singleton.mpr ⟨Text.isScalar_ofString "exception", hStable⟩

theorem IsScalar.stable {r : Record} (h : r.IsScalar) {passed : Option (Entries Datum)}
    (hExtra : r.extra = (passed.map fun entries => (("extra" : Text), Datum.mapping entries)).toList)
    {depth : Nat} (hPassed : (Datum.mapping (passed.getD [])).Loggable (depth + 2)) (style : Json.Style) :
    Json.Stable style (depth + 2) (.object r.members) := by
  obtain ⟨hKeys, hNames, hValues⟩ := Datum.loggable_mapping.mp hPassed
  have hEach : ∀ m ∈ r.members, m.1.IsScalar ∧ Json.Stable style (depth + 1) m.2 := by
    intro m hm
    rw [r.members_eq_overlay hExtra hKeys] at hm
    rcases Entries.mem_of_mem_overlay hm with hOwn | hGiven
    · exact h.stable_head style depth m hOwn
    · obtain ⟨entry, hEntry, rfl⟩ := Datum.mem_toJsonMembers hGiven
      exact ⟨hNames entry hEntry, (hValues entry hEntry).stable style⟩
  have hNodup : r.members.keys.Nodup := by
    rw [members_eq_putAll]
    exact Entries.nodup_putAll r.nodup_keys_head _
  exact .object hNodup (fun m hm => (hEach m hm).1) fun m hm => (hEach m hm).2

end Record

/-- A line of the log for machines is one line, and a document of its record. Take a record whose texts hold no
surrogates, with an exception or none, and values that were passed with the message or none: these hold no
floating-point numbers and no integers of too many digits. All code points of its line are printable ASCII. Sent as
UTF-8, it is read as an object with the severity, the message, the time, the logger and the exception if there is
one, over which the values are laid: they replace members of the same names and else follow in order, with
timestamps in the form for readers. -/
theorem line_is_document (r : Record) (hTexts : r.IsScalar) (passed : Option (Entries Datum))
    (hExtra : r.extra = (passed.map fun entries => (("extra" : Text), Datum.mapping entries)).toList)
    (depth : Nat) (hPassed : ∀ entries, passed = some entries → (Datum.mapping entries).Loggable (depth + 2))
    (status : Int) (headers : Headers) :
    (∀ c ∈ r.line, 0x20 ≤ c.toNat ∧ c.toNat ≤ 0x7E) ∧
      ∃ body, Utf8.encode r.line = .ok body ∧ Response.json { status, headers, body } (depth + 2) =
        .ok (.object (r.head.overlay (Datum.toJsonMembers (passed.getD [])))) := by
  have hMapping : (Datum.mapping (passed.getD [])).Loggable (depth + 2) := by
    cases passed with
    | none => exact .mapping List.nodup_nil (List.forall_mem_nil _) (List.forall_mem_nil _)
    | some entries => exact hPassed entries rfl
  have hStable := hTexts.stable hExtra hMapping {}
  have hMembers := r.members_eq_overlay hExtra (Datum.loggable_mapping.mp hMapping).1
  obtain ⟨m, rest, hCons⟩ : ∃ m rest, r.members = m :: rest := ⟨_, _, hMembers⟩
  refine ⟨hStable.plain.isPrintable_compact, ?_⟩
  rw [← hMembers, Record.line, hCons]
  exact Json.Stable.ofBytes_compact (hCons ▸ hStable)

/-- A message with a line break, which is replaced by a list, and a traceback with others. -/
theorem broken_lines_on_one_line :
    let time : Timestamp := ⟨⟨1704110400000000, by decide, by decide⟩, some ⟨19800000000, by decide, by decide, []⟩⟩
    let entries : Entries Datum :=
      [("file", .text "\u00e9😀"), ("message", .list [.instant time, .int (-7), .null])]
    let r : Record := {
      severity := "ERROR", message := "a\nb", time, logger := "m",
      exception := some ⟨some .value, some (.value, "x\r"), none, some "Traceback\n\tx\n"⟩,
      extra := [("extra", .mapping entries)] }
    (∀ c ∈ r.line, 0x20 ≤ c.toNat ∧ c.toNat ≤ 0x7E) ∧
      ∃ body, Utf8.encode r.line = .ok body ∧ Response.json { status := 200, body } 2 = .ok (.object [
        ("severity", .string "ERROR"),
        ("message", .array [.string "2024-01-01 12:00:00+05:30", .int (-7), .null]),
        ("time", .string "2024-01-01T12:00:00+05:30"),
        ("logger", .string "m"),
        ("exception", .object [("type", .string "ValueError"), ("value", .string "x\r"),
          ("traceback", .string "Traceback\n\tx\n")]),
        ("file", .string "\u00e9😀")]) := by
  intro time entries r
  have hTexts : r.IsScalar := by
    refine ⟨by decide, by decide, by decide, fun e he => ?_⟩
    cases he
    refine ⟨fun kind hKind => ?_, fun kind held hRaised => ?_, fun t ht => ?_⟩
    · cases hKind
      decide
    · cases hRaised
      decide
    · cases ht
      decide
  have hBound : (-7 : Int).natAbs < 10 ^ Json.maxDigits :=
    Nat.lt_of_lt_of_le (show 7 < 10 ^ 1 by decide) (Nat.pow_le_pow_right (by decide) (by decide))
  have hEntries : (Datum.mapping entries).Loggable (0 + 2) := by
    refine .mapping (by decide) ?_ ?_
    · simp only [entries, List.forall_mem_cons]
      decide
    · simp only [entries, List.forall_mem_cons]
      refine ⟨.text (by decide), .list ?_, List.forall_mem_nil _⟩
      simp only [List.forall_mem_cons]
      exact ⟨.instant time, .int hBound, .null, List.forall_mem_nil _⟩
  obtain ⟨hPrintable, body, hEncode, hRead⟩ :=
    line_is_document r hTexts (some entries) rfl 0 (fun _ h => Option.some.inj h ▸ hEntries) 200 []
  refine ⟨hPrintable, body, hEncode, hRead.trans ?_⟩
  refine eq_ok_of_toOption ?_
  dsimp only [r, entries, time]
  decide +kernel

end Log

end Bearer
