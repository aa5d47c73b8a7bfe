import Bearer.Entries
import Bearer.Decimal.Binary64

/-! The values of JSON documents, with whole numbers of any size kept apart from floating-point ones. -/

namespace Bearer

/-- A value of a JSON document. -/
inductive Json where
  | null
  | bool (b : Bool)
  | int (n : Int)
  | float (x : Binary64)
  | string (t : Text)
  | array (items : List Json)
  | object (members : List (Text × Json))

namespace Json

instance : Inhabited Json := ⟨null⟩

mutual

/-- Whether two values are the same, told by their parts. -/
def decEq : (a b : Json) → Decidable (a = b)
  | null, null => isTrue rfl
  | bool a, bool b => decidable_of_iff (a = b) ⟨congrArg bool, bool.inj⟩
  | int a, int b => decidable_of_iff (a = b) ⟨congrArg int, int.inj⟩
  | float a, float b => decidable_of_iff (a = b) ⟨congrArg float, float.inj⟩
  | string a, string b => decidable_of_iff (a = b) ⟨congrArg string, string.inj⟩
  | array a, array b => @decidable_of_iff _ (a = b) ⟨congrArg array, array.inj⟩ (decEqItems a b)
  | object a, object b => @decidable_of_iff _ (a = b) ⟨congrArg object, object.inj⟩ (decEqMembers a b)
  | null, bool _ | null, int _ | null, float _ | null, string _ | null, array _ | null, object _ => isFalse nofun
  | bool _, null | bool _, int _ | bool _, float _ | bool _, string _ | bool _, array _ | bool _, object _ => isFalse nofun
  | int _, null | int _, bool _ | int _, float _ | int _, string _ | int _, array _ | int _, object _ => isFalse nofun
  | float _, null | float _, bool _ | float _, int _ | float _, string _ | float _, array _ | float _, object _ =>
    isFalse nofun
  | string _, null | string _, bool _ | string _, int _ | string _, float _ | string _, array _ | string _, object _ =>
    isFalse nofun
  | array _, null | array _, bool _ | array _, int _ | array _, float _ | array _, string _ | array _, object _ =>
    isFalse nofun
  | object _, null | object _, bool _ | object _, int _ | object _, float _ | object _, string _ | object _, array _ =>
    isFalse nofun

def decEqItems : (a b : List Json) → Decidable (a = b)
  | [], [] => isTrue rfl
  | [], _ :: _ | _ :: _, [] => isFalse nofun
  | a :: as, b :: bs =>
    match decEq a b, decEqItems as bs with
    | isTrue h, isTrue hs => isTrue (h ▸ hs ▸ rfl)
    | isFalse h, _ => isFalse fun hCons => h (List.cons.inj hCons).1
    | _, isFalse hs => isFalse fun hCons => hs (List.cons.inj hCons).2

def decEqMembers : (a b : List (Text × Json)) → Decidable (a = b)
  | [], [] => isTrue rfl
  | [], _ :: _ | _ :: _, [] => isFalse nofun
  | (k, a) :: as, (l, b) :: bs =>
    match (inferInstance : Decidable (k = l)), decEq a b, decEqMembers as bs with
    | isTrue hk, isTrue h, isTrue hs => isTrue (hk ▸ h ▸ hs ▸ rfl)
    | isFalse hk, _, _ => isFalse fun hCons => hk (Prod.mk.inj (List.cons.inj hCons).1).1
    | _, isFalse h, _ => isFalse fun hCons => h (Prod.mk.inj (List.cons.inj hCons).1).2
    | _, _, isFalse hs => isFalse fun hCons => hs (List.cons.inj hCons).2

end

instance : DecidableEq Json := decEq

/-- The value of a member, of an object that has it. -/
def member? (key : Text) : Json → Option Json
  | object members => Entries.get? key members
  | _ => none

end Json

end Bearer
