import Bearer.Json.Printer
import Bearer.Proofs.Json.Reading

/-! What is printed in any style is a document, and one of what was printed as far as text can carry it: strings come
back as the style carries them, and of members that then have one name the last value remains. -/

namespace Bearer.Json

/-- Values in which at most `depth` containers are nested, without floating-point numbers and without integers
of too many digits. -/
inductive Plain : (depth : Nat) → Json → Prop where
  | null {depth : Nat} : Plain depth .null
  | bool {depth : Nat} (b : Bool) : Plain depth (.bool b)
  | int {depth : Nat} {n : Int} (hBound : n.natAbs < 10 ^ maxDigits) : Plain depth (.int n)
  | string {depth : Nat} (s : Text) : Plain depth (.string s)
  | array {depth : Nat} {items : List Json} (hItems : ∀ v ∈ items, Plain depth v) :
      Plain (depth + 1) (.array items)
  | object {depth : Nat} {members : List (Text × Json)} (hMembers : ∀ m ∈ members, Plain depth m.2) :
      Plain (depth + 1) (.object members)

mutual

/-- What a value is once it has been printed and read. -/
def carried (style : Style) : Json → Json
  | string s => string (style.carried s)
  | array items => array (carriedItems style items)
  | object members => object (Entries.ofList (carriedMembers style members))
  | v => v

/-- What the items of an array are. -/
def carriedItems (style : Style) : List Json → List Json
  | [] => []
  | v :: rest => carried style v :: carriedItems style rest

/-- What the members of an object are, as they are written. -/
def carriedMembers (style : Style) : List (Text × Json) → List (Text × Json)
  | [] => []
  | (name, v) :: rest => (style.carried name, carried style v) :: carriedMembers style rest

end

theorem carriedItems_eq_map (style : Style) (items : List Json) :
    carriedItems style items = items.map (carried style) := by
  induction items with
  | nil => rfl
  | cons v items ih => rw [carriedItems, ih, List.map_cons]

theorem carriedMembers_eq_map (style : Style) (members : List (Text × Json)) :
    carriedMembers style members = members.map fun m => (style.carried m.1, m.2.carried style) := by
  induction members with
  | nil => rfl
  | cons m members ih =>
      rw [carriedMembers, ih]
      rfl

theorem isBlank_of_gap (style : Style) (level : Nat) :
    ∀ c ∈ style.gap level, Cursor.isBlank c = true := by
  intro c hMem
  unfold Style.gap at hMem
  split at hMem
  · cases hMem
  · rcases List.mem_cons.mp hMem with rfl | hMem
    · rfl
    · rw [(List.mem_replicate.mp hMem).2]
      rfl

/-- A separator is a comma and blanks. -/
theorem separator_eq (style : Style) (level : Nat) :
    ∃ blanks, style.separator level = .scalar ',' :: blanks ∧ ∀ c ∈ blanks, Cursor.isBlank c = true := by
  unfold Style.separator
  split
  · exact ⟨[.scalar ' '], rfl, by decide⟩
  · exact ⟨_, rfl, isBlank_of_gap style level⟩

theorem printString_append (ascii : Bool) (s rest : Text) :
    printString ascii s ++ rest = .scalar '"' :: (s.flatMap (printPoint ascii) ++ .scalar '"' :: rest) := by
  simp [printString]

variable {style : Style} {depth : Nat}

/-- A value is derived wherever it is printed. -/
def IsPrinted (style : Style) (depth : Nat) (v : Json) : Prop :=
  ∀ level rest, Derives depth (.value (carried style v)) (print style level v ++ rest) rest

theorem IsPrinted.elements {v : Json} {items : List Json} (hValue : IsPrinted style depth v) (level : Nat)
    (hItems : ∀ w ∈ items, IsPrinted style depth w) {ending : Text}
    (hEnding : ∀ c ∈ ending, Cursor.isBlank c = true) (rest : Text) :
    Derives depth (.elements (carriedItems style (v :: items)))
      (print style level v ++ (printItems style level items ++ (ending ++ .scalar ']' :: rest))) rest := by
  induction items generalizing v with
  | nil => exact .lastElement (hValue level _) (.append hEnding _)
  | cons w items ih =>
      obtain ⟨blanks, hSeparator, hBlanks⟩ := separator_eq style level
      have hItems' := ih (hItems w List.mem_cons_self) fun u hu => hItems u (List.mem_cons_of_mem w hu)
      refine .nextElement (hValue level _) ?_ (.append hBlanks _) hItems'
      rw [printItems, hSeparator]
      simp only [List.cons_append, List.append_assoc]
      exact .none _

theorem IsPrinted.member {level : Nat} {v : Json} (hValue : IsPrinted style depth v) (name rest : Text) :
    Derives depth (.member (style.carried name) (carried style v))
      (printString style.ascii name ++ (": " : Text) ++ print style level v ++ rest) rest := by
  rw [List.append_assoc, List.append_assoc, printString_append]
  refine .member (characters_print style name _) (.none _) (.more ?_ (.none _)) (hValue level rest)
  rfl

theorem IsPrinted.members {v : Json} {members : List (Text × Json)} (hValue : IsPrinted style depth v) (level : Nat)
    (name : Text) (hMembers : ∀ m ∈ members, IsPrinted style depth m.2) {ending : Text}
    (hEnding : ∀ c ∈ ending, Cursor.isBlank c = true) (rest : Text) :
    Derives depth (.members (carriedMembers style ((name, v) :: members)))
      (printString style.ascii name ++ (": " : Text) ++ print style level v
        ++ (printMembers style level members ++ (ending ++ .scalar '\x7d' :: rest))) rest := by
  induction members generalizing name v with
  | nil => exact .lastMember (hValue.member name _) (.append hEnding _)
  | cons m members ih =>
      obtain ⟨blanks, hSeparator, hBlanks⟩ := separator_eq style level
      have hMembers' := ih (hMembers m List.mem_cons_self) m.1
        fun m' hm' => hMembers m' (List.mem_cons_of_mem m hm')
      refine .nextMember (hValue.member name _) ?_ (.append hBlanks _) hMembers'
      rw [printMembers, hSeparator]
      simp only [List.cons_append, List.append_assoc]
      exact .none _

theorem isPrinted_array {items : List Json} (hItems : ∀ v ∈ items, IsPrinted style depth v) :
    IsPrinted style (depth + 1) (.array items) := by
  intro level rest
  cases items with
  | nil => exact .emptyArray (.none _)
  | cons v items =>
      have hElements := (hItems v List.mem_cons_self).elements (level + 1)
        (fun w hw => hItems w (List.mem_cons_of_mem v hw)) (isBlank_of_gap style level) rest
      rw [carried, print]
      simp only [List.cons_append, List.append_assoc, List.nil_append]
      exact .array (.append (isBlank_of_gap style (level + 1)) _) hElements

/-- An object is derived with its members as they are written. -/
theorem derives_object {members : List (Text × Json)} (hMembers : ∀ m ∈ members, IsPrinted style depth m.2)
    (level : Nat) (rest : Text) :
    Derives (depth + 1) (.object (carriedMembers style members)) (print style level (.object members) ++ rest) rest := by
  cases members with
  | nil => exact .noMembers (.none _)
  | cons m members =>
      have hDerived := (hMembers m List.mem_cons_self).members (level + 1) m.1
        (fun m' hm' => hMembers m' (List.mem_cons_of_mem m hm')) (isBlank_of_gap style level) rest
      rw [print]
      simp only [List.cons_append, List.append_assoc, List.nil_append] at hDerived ⊢
      exact .someMembers (.append (isBlank_of_gap style (level + 1)) _) hDerived

/-- Plain depth values are derived wherever they are printed. -/
theorem Plain.isPrinted {v : Json} (hPlain : Plain depth v) : IsPrinted style depth v := by
  induction hPlain with
  | null => exact fun _ rest => .named (.head _) rest
  | bool b =>
      cases b with
      | true => exact fun _ rest => .named (.tail _ (.head _)) rest
      | false => exact fun _ rest => .named (.tail _ (.tail _ (.head _))) rest
  | int hBound => exact fun _ rest => .number (number_print hBound rest)
  | string s =>
      intro level rest
      rw [print, printString_append]
      exact .string (characters_print style s rest)
  | array hItems ih => exact isPrinted_array ih
  | object hMembers ih => exact fun level rest => .object (derives_object ih level rest)

/-- What is printed is read, blanks behind it left aside. -/
theorem read_print (style : Style) {v : Json} (hPlain : Plain depth v) {blanks : Text}
    (hBlanks : Blanks blanks []) : read (print style 0 v ++ blanks) depth = .ok (carried style v) :=
  read_eq_ok_iff.mpr ⟨_, _, .none _, hPlain.isPrinted 0 blanks, hBlanks⟩

/-- A printed object is a document of its members as they are written. -/
theorem isDocument_print (style : Style) {members : List (Text × Json)} (hMembers : ∀ m ∈ members, Plain depth m.2) :
    IsDocument (depth + 1) (.object (carriedMembers style members)) (print style 0 (.object members)) := by
  refine ⟨_, [], .none _, ?_, .none []⟩
  have hDerived : Derives (depth + 1) (.object (carriedMembers style members))
      (print style 0 (.object members) ++ []) [] :=
    derives_object (fun m hm => (hMembers m hm).isPrinted) 0 []
  rwa [List.append_nil] at hDerived

end Bearer.Json
