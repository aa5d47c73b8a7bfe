import Bearer.Json.Document
import Bearer.Proofs.Json.Documents
import Bearer.Proofs.Text.Utf8

/-! The compact form of a document is printable ASCII, and a printed document holds a surrogate only if a string in it
does and is written as it is. -/

namespace Bearer.Json

/-- Values in which no string holds a surrogate. -/
inductive IsScalar : Json → Prop where
  | null : IsScalar .null
  | bool (b : Bool) : IsScalar (.bool b)
  | int (n : Int) : IsScalar (.int n)
  | float (x : Binary64) : IsScalar (.float x)
  | string {s : Text} (hString : s.IsScalar) : IsScalar (.string s)
  | array {items : List Json} (hItems : ∀ v ∈ items, IsScalar v) : IsScalar (.array items)
  | object {members : List (Text × Json)} (hNames : ∀ m ∈ members, m.1.IsScalar)
      (hValues : ∀ m ∈ members, IsScalar m.2) : IsScalar (.object members)

theorem isScalar_string {s : Text} : (Json.string s).IsScalar ↔ s.IsScalar where
  mp h := by
    cases h with
    | string hString => exact hString
  mpr := .string

theorem isScalar_array {items : List Json} : (Json.array items).IsScalar ↔ ∀ v ∈ items, v.IsScalar where
  mp h := by
    cases h with
    | array hItems => exact hItems
  mpr := .array

theorem isScalar_object {members : List (Text × Json)} :
    (Json.object members).IsScalar ↔ (∀ m ∈ members, m.1.IsScalar) ∧ ∀ m ∈ members, m.2.IsScalar where
  mp h := by
    cases h with
    | object hNames hValues => exact ⟨hNames, hValues⟩
  mpr h := .object h.1 h.2

/-- The code points from the blank to the tilde. -/
def IsPrintable (c : CodePoint) : Prop := 0x20 ≤ c.toNat ∧ c.toNat ≤ 0x7E

instance (c : CodePoint) : Decidable (IsPrintable c) := inferInstanceAs (Decidable (_ ∧ _))

theorem IsPrintable.isSurrogate {c : CodePoint} (h : IsPrintable c) : c.isSurrogate = false := by
  cases c with
  | scalar c => rfl
  | surrogate offset => exact absurd h.2 (by simp only [CodePoint.toNat]; omega)

theorem isPrintable_hex (width n : Nat) : ∀ c ∈ Text.hex width n, IsPrintable c := by
  have hDigit : ∀ n, n < 16 → IsPrintable (Text.hexDigit n) := by decide
  induction width generalizing n with
  | zero => exact List.forall_mem_nil _
  | succ width ih =>
      exact List.forall_mem_append.mpr ⟨ih (n / 16), List.forall_mem_singleton.mpr (hDigit _ (by omega))⟩

theorem isPrintable_unitEscape (u : Nat) : ∀ c ∈ unitEscape u, IsPrintable c :=
  List.forall_mem_append.mpr ⟨by decide, isPrintable_hex 4 u⟩

theorem isPrintable_shortEscape {c : CodePoint} {escape : Text} (h : shortEscape? c = some escape) :
    ∀ d ∈ escape, IsPrintable d := by
  unfold shortEscape? at h
  split at h
  all_goals first
    | cases h
      decide
    | cases h

theorem isPrintable_ofInt (n : Int) : ∀ c ∈ Decimal.ofInt n, IsPrintable c := by
  have hDigit : ∀ d, d < 10 → IsPrintable (Decimal.digitPoint d) := by decide
  have hDigits (n : Nat) : ∀ c ∈ Decimal.ofNat n, IsPrintable c :=
    List.forall_mem_map.mpr fun d hd => hDigit d (Decimal.lt_of_mem_digits hd)
  cases n with
  | ofNat n => exact hDigits n
  | negSucc n => exact List.forall_mem_cons.mpr ⟨by decide, hDigits (n + 1)⟩

/-- A style keeps to code points of a kind outside of strings: they include the printable ones, and the line
break if the style uses it. -/
structure Style.Within (style : Style) (P : CodePoint → Prop) : Prop where
  printable : ∀ c, IsPrintable c → P c
  lineBreak : style.indent ≠ none → P (.scalar '\n')

variable {style : Style} {P : CodePoint → Prop}

namespace Style.Within

theorem of_printable (h : style.Within P) {t : Text} (ht : ∀ c ∈ t, IsPrintable c) : ∀ c ∈ t, P c :=
  fun c hc => h.printable c (ht c hc)

theorem printPoint (h : style.Within P) {c : CodePoint} (hc : style.ascii = true ∨ P c) :
    ∀ d ∈ printPoint style.ascii c, P d := by
  unfold Json.printPoint
  cases hShort : shortEscape? c with
  | some escape => exact h.of_printable (isPrintable_shortEscape hShort)
  | none =>
      dsimp only
      split
      · intro d hd
        obtain ⟨u, -, hMem⟩ := List.mem_flatMap.mp hd
        exact h.printable d (isPrintable_unitEscape u d hMem)
      · next hPlain =>
          refine List.forall_mem_singleton.mpr (hc.elim (fun hAscii => h.printable c ?_) id)
          exact ⟨Nat.not_lt.mp fun hControl => hPlain (.inl hControl),
            Nat.not_lt.mp fun hBeyond => hPlain (.inr ⟨hAscii, hBeyond⟩)⟩

theorem printString (h : style.Within P) {s : Text} (hs : style.ascii = true ∨ ∀ c ∈ s, P c) :
    ∀ c ∈ printString style.ascii s, P c := by
  have hInside : ∀ d ∈ s.flatMap (Json.printPoint style.ascii), P d := by
    intro d hd
    obtain ⟨c, hc, hMem⟩ := List.mem_flatMap.mp hd
    exact h.printPoint (hs.imp_right fun hAll => hAll c hc) d hMem
  exact List.forall_mem_append.mpr ⟨List.forall_mem_cons.mpr ⟨h.printable _ (by decide), hInside⟩,
    h.of_printable (by decide)⟩

theorem gap (h : style.Within P) (level : Nat) : ∀ c ∈ style.gap level, P c := by
  unfold Style.gap
  split
  · exact List.forall_mem_nil _
  · next width hIndent =>
      refine List.forall_mem_cons.mpr ⟨h.lineBreak (by rw [hIndent]; exact Option.some_ne_none width), ?_⟩
      intro c hc
      rw [(List.mem_replicate.mp hc).2]
      exact h.printable _ (by decide)

theorem separator (h : style.Within P) (level : Nat) : ∀ c ∈ style.separator level, P c := by
  unfold Style.separator
  split
  · exact h.of_printable (by decide)
  · exact List.forall_mem_cons.mpr ⟨h.printable _ (by decide), h.gap level⟩

theorem printItems (h : style.Within P) {level : Nat} {items : List Json}
    (hItems : ∀ v ∈ items, ∀ c ∈ print style level v, P c) : ∀ c ∈ printItems style level items, P c := by
  induction items with
  | nil => exact List.forall_mem_nil _
  | cons v items ih =>
      have hValue := hItems v List.mem_cons_self
      have hRest := ih fun w hw => hItems w (List.mem_cons_of_mem v hw)
      simp only [Json.printItems, List.forall_mem_append]
      exact ⟨⟨h.separator level, hValue⟩, hRest⟩

theorem printMembers (h : style.Within P) {level : Nat} {members : List (Text × Json)}
    (hNames : ∀ m ∈ members, ∀ c ∈ Json.printString style.ascii m.1, P c)
    (hValues : ∀ m ∈ members, ∀ c ∈ print style level m.2, P c) :
    ∀ c ∈ printMembers style level members, P c := by
  induction members with
  | nil => exact List.forall_mem_nil _
  | cons m members ih =>
      have hName := hNames m List.mem_cons_self
      have hValue := hValues m List.mem_cons_self
      have hRest := ih (fun m' hm' => hNames m' (List.mem_cons_of_mem m hm'))
        fun m' hm' => hValues m' (List.mem_cons_of_mem m hm')
      have hColon : ∀ c ∈ (": " : Text), P c := h.of_printable (by decide)
      simp only [Json.printMembers, List.forall_mem_append]
      exact ⟨⟨⟨⟨h.separator level, hName⟩, hColon⟩, hValue⟩, hRest⟩

/-- A plain value is printed with code points of the kind, if no code point beyond ASCII is written in strings, or
if those of its strings are of the kind. -/
theorem print (h : style.Within P) {depth : Nat} {v : Json} (hPlain : Plain depth v)
    (hv : style.ascii = true ∨ v.IsScalar ∧ ∀ c : CodePoint, c.isSurrogate = false → P c) (level : Nat) :
    ∀ c ∈ print style level v, P c := by
  have hString {s : Text} (hs : style.ascii = true ∨ s.IsScalar ∧ ∀ c : CodePoint, c.isSurrogate = false → P c) :
      ∀ c ∈ Json.printString style.ascii s, P c :=
    h.printString (hs.imp_right fun hAll c hc => hAll.2 c (hAll.1 c hc))
  induction hPlain generalizing level with
  | null => exact h.of_printable (t := "null") (by decide)
  | bool b =>
      cases b with
      | true => exact h.of_printable (t := "true") (by decide)
      | false => exact h.of_printable (t := "false") (by decide)
  | int hBound => exact h.of_printable (isPrintable_ofInt _)
  | string s => exact hString (hv.imp_right fun hAll => ⟨isScalar_string.mp hAll.1, hAll.2⟩)
  | @array _ items hItems ih =>
      have hValues : ∀ v ∈ items, ∀ level, ∀ c ∈ Json.print style level v, P c := fun v hMem =>
        ih v hMem (hv.imp_right fun hAll => ⟨isScalar_array.mp hAll.1 v hMem, hAll.2⟩)
      cases items with
      | nil => exact h.of_printable (t := "[]") (by decide)
      | cons v items =>
          have hRest := h.printItems fun w hw => hValues w (List.mem_cons_of_mem v hw) (level + 1)
          simp only [Json.print, List.forall_mem_append, List.forall_mem_cons]
          exact ⟨⟨⟨⟨⟨h.printable _ (by decide), h.gap _⟩, hValues v List.mem_cons_self _⟩, hRest⟩, h.gap _⟩,
            h.printable _ (by decide), List.forall_mem_nil _⟩
  | @object _ members hMembers ih =>
      have hValues : ∀ m ∈ members, ∀ level, ∀ c ∈ Json.print style level m.2, P c := fun m hMem =>
        ih m hMem (hv.imp_right fun hAll => ⟨(isScalar_object.mp hAll.1).2 m hMem, hAll.2⟩)
      have hNames : ∀ m ∈ members, ∀ c ∈ Json.printString style.ascii m.1, P c := fun m hMem =>
        hString (hv.imp_right fun hAll => ⟨(isScalar_object.mp hAll.1).1 m hMem, hAll.2⟩)
      cases members with
      | nil => exact h.of_printable (t := [.scalar '\x7b', .scalar '\x7d']) (by decide)
      | cons m members =>
          have hColon : ∀ c ∈ (": " : Text), P c := h.of_printable (by decide)
          have hRest := h.printMembers (fun m' hm' => hNames m' (List.mem_cons_of_mem m hm'))
            fun m' hm' => hValues m' (List.mem_cons_of_mem m hm') (level + 1)
          simp only [Json.print, List.forall_mem_append, List.forall_mem_cons]
          exact ⟨⟨⟨⟨⟨⟨⟨h.printable _ (by decide), h.gap _⟩, hNames m List.mem_cons_self⟩, hColon⟩,
            hValues m List.mem_cons_self _⟩, hRest⟩, h.gap _⟩, h.printable _ (by decide), List.forall_mem_nil _⟩

end Style.Within

/-- A plain value is printed without surrogates if no code point beyond ASCII or no surrogate is written. -/
theorem Plain.isScalar_print {depth : Nat} {v : Json} (hPlain : Plain depth v)
    (h : style.ascii = true ∨ v.IsScalar) (level : Nat) : (print style level v).IsScalar := by
  have hWithin : style.Within fun c => c.isSurrogate = false := ⟨fun _ hc => hc.isSurrogate, fun _ => rfl⟩
  exact hWithin.print hPlain (h.imp_right fun hScalar => ⟨hScalar, fun _ => id⟩) level

/-- The compact text of a plain value is one line of printable ASCII. -/
theorem Plain.isPrintable_compact {depth : Nat} {v : Json} (hPlain : Plain depth v) :
    ∀ c ∈ compact v, IsPrintable c := by
  have hWithin : Style.Within {} IsPrintable := ⟨fun _ => id, fun hIndent => absurd rfl hIndent⟩
  exact hWithin.print hPlain (.inl rfl) 0

/-- The byte order mark of UTF-8. -/
def utf8Mark : Bytes := [0xEF, 0xBB, 0xBF]

theorem detect_of_mark (bytes : Bytes) : Charset.detect (utf8Mark ++ bytes) = .utf8Marked := rfl

/-- Two ASCII characters other than zero tell UTF-8. -/
theorem detect_of_ascii {a b : UInt8} (hAscii : a < 0x80) (hFirst : a ≠ 0) (hSecond : b ≠ 0) (rest : Bytes) :
    Charset.detect (a :: b :: rest) = .utf8 := by
  have hZeros : Charset.ofZeros (a :: b :: rest) = .utf8 := by
    unfold Charset.ofZeros
    split
    · next hBytes =>
        cases hBytes
        rw [if_neg hFirst, if_neg hSecond]
    · next hBytes =>
        cases hBytes
        rw [if_neg hFirst, if_neg hSecond]
    · rfl
  have hOther {mark : UInt8} (more : Bytes) (hMark : mark = 0 ∨ 0x80 ≤ mark) :
      ¬(mark :: more).isPrefixOf (a :: b :: rest) = true := by
    rw [List.isPrefixOf, Bool.and_eq_true, beq_iff_eq]
    rintro ⟨rfl, -⟩
    rcases hMark with rfl | hMark
    · exact hFirst rfl
    · exact absurd hAscii (UInt8.not_lt.mpr hMark)
  rw [Charset.detect, if_neg (hOther _ (.inl rfl)), if_neg (hOther _ (.inr (by decide))),
    if_neg (hOther _ (.inr (by decide))), if_neg (hOther _ (.inr (by decide))),
    if_neg (hOther _ (.inr (by decide))), hZeros]

/-- A text that begins with two ASCII characters other than zero is decoded from its UTF-8 form, with or without
a mark in front. -/
theorem decode_of_encode {a b : Char} {t : Text} {bytes : Bytes}
    (hEncode : Utf8.encode (.scalar a :: .scalar b :: t) = .ok bytes) (hFirst : 0 < a.toNat ∧ a.toNat < 0x80)
    (hSecond : 0 < b.toNat ∧ b.toNat < 0x80) :
    decode bytes = .ok (.scalar a :: .scalar b :: t) ∧
      decode (utf8Mark ++ bytes) = .ok (.scalar a :: .scalar b :: t) := by
  have hPassing := Utf8.decodePassing_of_encode hEncode
  have hByte {c : Char} (hAscii : c.toNat < 0x80) : Utf8.encodeChar c = [UInt8.ofNat c.toNat] := if_pos hAscii
  obtain ⟨-, hBytes⟩ := Utf8.encode_eq_ok_iff.mp hEncode
  have hDetect : Charset.detect bytes = .utf8 := by
    rw [hBytes, List.flatMap_cons, List.flatMap_cons, Utf8.encodePoint, Utf8.encodePoint, hByte hFirst.2,
      hByte hSecond.2]
    refine detect_of_ascii ?_ ?_ ?_ _
    · rw [UInt8.lt_iff_toNat_lt, Utf8.toNat_ofNat (by omega)]
      exact hFirst.2
    · intro hZero
      have hNumber := congrArg UInt8.toNat hZero
      rw [Utf8.toNat_ofNat (by omega)] at hNumber
      exact absurd hNumber (by show a.toNat ≠ 0; omega)
    · intro hZero
      have hNumber := congrArg UInt8.toNat hZero
      rw [Utf8.toNat_ofNat (by omega)] at hNumber
      exact absurd hNumber (by show b.toNat ≠ 0; omega)
  constructor
  · rw [decode, hDetect]
    rw [hPassing]
    rfl
  · rw [decode, detect_of_mark]
    show (Utf8.decodePassing bytes).mapError DocumentError.utf8 = _
    rw [hPassing]
    rfl

/-- A printed object can be written as UTF-8 and is decoded again. -/
theorem decode_print (style : Style) {m : Text × Json} {members : List (Text × Json)} {depth : Nat}
    (hPlain : ∀ m' ∈ m :: members, Plain depth m'.2)
    (hScalar : style.ascii = true ∨ (Json.object (m :: members)).IsScalar) :
    ∃ bytes, Utf8.encode (print style 0 (.object (m :: members))) = .ok bytes ∧
      decode bytes = .ok (print style 0 (.object (m :: members))) ∧
      decode (utf8Mark ++ bytes) = .ok (print style 0 (.object (m :: members))) := by
  obtain ⟨bytes, hEncode⟩ := Utf8.encode_of_isScalar ((Plain.object hPlain).isScalar_print hScalar 0)
  obtain ⟨b, t, hText, hSecond⟩ : ∃ b t, print style 0 (.object (m :: members)) = .scalar '\x7b' :: .scalar b :: t ∧
      0 < b.toNat ∧ b.toNat < 0x80 := by
    rw [print, Style.gap]
    cases style.indent with
    | none => exact ⟨'"', _, rfl, by decide⟩
    | some width => exact ⟨'\n', _, rfl, by decide⟩
  rw [hText] at hEncode ⊢
  exact ⟨bytes, hEncode, decode_of_encode hEncode (by decide) hSecond⟩

end Bearer.Json
