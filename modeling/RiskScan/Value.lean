import RiskScan.Calendar
/-!
# Values of a settings file

What a settings file or an extension hands over is not typed in advance: it is a tree of lists and
mappings over scalars, and every setting is read out of such a tree. The keys of a mapping are
scalars.
-/

namespace RiskScan

inductive Scalar where
  | null
  | bool (value : Bool)
  | int (value : Int)
  | float (value : Float)
  | text (value : String)
  | date (value : Date)
  | moment (value : Moment)
  deriving DecidableEq

inductive Value where
  | scalar (value : Scalar)
  | list (items : List Value)
  | mapping (entries : List (Scalar × Value))

instance : Inhabited Value := ⟨.scalar .null⟩

namespace Value

mutual

def decEq : (first second : Value) → Decidable (first = second)
  | .scalar a, .scalar b =>
    if h : a = b then .isTrue (congrArg scalar h) else .isFalse fun heq => h (scalar.inj heq)
  | .list items, .list others =>
    match decEqItems items others with
    | .isTrue h => .isTrue (congrArg list h)
    | .isFalse h => .isFalse fun heq => h (list.inj heq)
  | .mapping entries, .mapping others =>
    match decEqEntries entries others with
    | .isTrue h => .isTrue (congrArg mapping h)
    | .isFalse h => .isFalse fun heq => h (mapping.inj heq)
  | .scalar _, .list _ | .scalar _, .mapping _ | .list _, .scalar _ | .list _, .mapping _
  | .mapping _, .scalar _ | .mapping _, .list _ => .isFalse nofun

def decEqItems : (items others : List Value) → Decidable (items = others)
  | [], [] => .isTrue rfl
  | item :: items, other :: others =>
    match decEq item other, decEqItems items others with
    | .isTrue h, .isTrue hrest => .isTrue (h ▸ hrest ▸ rfl)
    | .isFalse h, _ => .isFalse fun heq => h (List.cons.inj heq).1
    | _, .isFalse h => .isFalse fun heq => h (List.cons.inj heq).2
  | [], _ :: _ | _ :: _, [] => .isFalse nofun

def decEqEntries : (entries others : List (Scalar × Value)) → Decidable (entries = others)
  | [], [] => .isTrue rfl
  | (key, value) :: entries, (key', value') :: others =>
    if hkey : key = key' then
      match decEq value value', decEqEntries entries others with
      | .isTrue h, .isTrue hrest => .isTrue (hkey ▸ h ▸ hrest ▸ rfl)
      | .isFalse h, _ => .isFalse fun heq => h (Prod.mk.inj (List.cons.inj heq).1).2
      | _, .isFalse h => .isFalse fun heq => h (List.cons.inj heq).2
    else .isFalse fun heq => hkey (Prod.mk.inj (List.cons.inj heq).1).1
  | [], _ :: _ | _ :: _, [] => .isFalse nofun

end

instance : DecidableEq Value := decEq

abbrev null : Value := .scalar .null
abbrev bool (value : Bool) : Value := .scalar (.bool value)
abbrev int (value : Int) : Value := .scalar (.int value)
abbrev float (value : Float) : Value := .scalar (.float value)
abbrev text (value : String) : Value := .scalar (.text value)

def isNull : Value → Bool
  | .scalar .null => true
  | _ => false

/-- The name under which messages refer to the type of a value. -/
def kind : Value → String
  | .scalar .null => "NoneType"
  | .scalar (.bool _) => "bool"
  | .scalar (.int _) => "int"
  | .scalar (.float _) => "float"
  | .scalar (.text _) => "str"
  | .scalar (.date _) => "date"
  | .scalar (.moment _) => "datetime"
  | .list _ => "list"
  | .mapping _ => "dict"

/-- The name of the type with the name of its module in front, where it has one. -/
def qualifiedKind : Value → String
  | .scalar (.date _) => "datetime.date"
  | .scalar (.moment _) => "datetime.datetime"
  | value => value.kind

end Value

def lookup? (key : Scalar) : List (Scalar × Value) → Option Value
  | [] => none
  | (candidate, value) :: rest => if candidate = key then some value else lookup? key rest

end RiskScan
