import Mathlib.Data.List.Nodup
import Mathlib.Data.List.ProdSigma

/-!
# Codecs of JSON models

How a library of declared models writes values as JSON and reads them back,
field by field: a codec has the check of its type, and reads what it writes of
every value that passes. Objects are closed: a key that is not declared is
refused. Numbers with a fraction are of any type the library has for them.
-/

namespace CadPlot.JsonCodec

inductive JsonValue (φ : Type) where
  | null
  | bool (b : Bool)
  | int (n : Int)
  | float (x : φ)
  | str (s : String)
  | arr (items : List (JsonValue φ))
  | obj (fields : List (String × JsonValue φ))

structure Codec (φ α : Type) where
  encode : α → JsonValue φ
  decode : JsonValue φ → Option α
  valid : α → Bool
  decode_encode : ∀ a, valid a = true → decode (encode a) = some a

variable {φ α β : Type}

theorem decide_self (value : String) : decide (value = value) = true := decide_eq_true rfl

namespace Codec

/-- A string that passes a check. -/
def str (check : String → Bool) : Codec φ String where
  encode := .str
  decode
    | .str s => if check s then some s else none
    | _ => none
  valid := check
  decode_encode _ h := if_pos h

def bool : Codec φ Bool where
  encode := .bool
  decode
    | .bool b => some b
    | _ => none
  valid _ := true
  decode_encode _ _ := rfl

/-- A number between two bounds, neither of them negative. -/
def nat (low high : Nat) : Codec φ Nat where
  encode n := .int n
  decode
    | .int (.ofNat n) => if low ≤ n ∧ n ≤ high then some n else none
    | _ => none
  valid n := decide (low ≤ n ∧ n ≤ high)
  decode_encode _ h := if_pos (of_decide_eq_true h)

def float (check : φ → Bool) : Codec φ φ where
  encode := .float
  decode
    | .float x => if check x then some x else none
    | _ => none
  valid := check
  decode_encode _ h := if_pos h

def optional (c : Codec φ α) (hnull : ∀ a, c.encode a ≠ .null) : Codec φ (Option α) where
  encode a := a.elim .null c.encode
  decode
    | .null => some none
    | v => (c.decode v).map some
  valid a := a.all c.valid
  decode_encode a h := by
    cases a with
    | none => rfl
    | some a =>
      have hread := c.decode_encode a h
      have hnot := hnull a
      simp only [Option.elim_some]
      rw [hread, Option.map_some]

theorem mapM_decode_encode (c : Codec φ α) (items : List α) (h : items.all c.valid = true) :
    (items.map c.encode).mapM c.decode = some items := by
  induction items with
  | nil => rfl
  | cons a items ih =>
    rw [List.all_cons, Bool.and_eq_true] at h
    rw [List.map_cons, List.mapM_cons, c.decode_encode a h.1, ih h.2]
    rfl

/-- A list with bounds on its length. -/
def list (low high : Nat) (c : Codec φ α) : Codec φ (List α) where
  encode items := .arr (items.map c.encode)
  decode
    | .arr items => if low ≤ items.length ∧ items.length ≤ high then items.mapM c.decode else none
    | _ => none
  valid items := decide (low ≤ items.length ∧ items.length ≤ high) && items.all c.valid
  decode_encode items h := by
    rw [Bool.and_eq_true, decide_eq_true_eq] at h
    simp only [List.length_map]
    rw [if_pos h.1, mapM_decode_encode c items h.2]

def triple (c : Codec φ α) : Codec φ (α × α × α) where
  encode x := .arr [c.encode x.1, c.encode x.2.1, c.encode x.2.2]
  decode
    | .arr [a, b, d] => do
      let a ← c.decode a
      let b ← c.decode b
      let d ← c.decode d
      some (a, b, d)
    | _ => none
  valid x := c.valid x.1 && (c.valid x.2.1 && c.valid x.2.2)
  decode_encode x h := by
    simp only [Bool.and_eq_true] at h
    simp [c.decode_encode _ h.1, c.decode_encode _ h.2.1, c.decode_encode _ h.2.2]

/-- A value in another form. -/
def view (c : Codec φ α) (into : α → β) (back : β → α)
    (h : ∀ b, into (back b) = b) : Codec φ β where
  encode b := c.encode (back b)
  decode v := (c.decode v).map into
  valid b := c.valid (back b)
  decode_encode b hb := by rw [c.decode_encode _ hb, Option.map_some, h]

/-- A form that not every value of the codec has. -/
def refine (c : Codec φ α) (into : α → Option β) (back : β → α)
    (h : ∀ b, into (back b) = some b) :
    Codec φ β where
  encode b := c.encode (back b)
  decode v := (c.decode v).bind into
  valid b := c.valid (back b)
  decode_encode b hb := by rw [c.decode_encode _ hb, Option.bind_some, h]

/-- One of some values, each with its text. -/
def enumeration (text : α → String) (all : List α)
    (h : ∀ a, (all.find? fun b => text b = text a) = some a) : Codec φ α :=
  (str fun _ => true).refine (fun s => all.find? fun b => text b = s) text h

/-- A validator of the whole model. -/
def check (c : Codec φ α) (p : α → Bool) : Codec φ α where
  encode := c.encode
  decode v := (c.decode v).filter p
  valid a := c.valid a && p a
  decode_encode a h := by
    rw [Bool.and_eq_true] at h
    rw [c.decode_encode a h.1]
    simp [h.2]

end Codec

/-! ### Objects -/

/-- The declared fields of a model, in order. -/
structure Fields (φ α : Type) where
  names : List String
  encode : α → List (String × JsonValue φ)
  decode : (String → Option (JsonValue φ)) → Option α
  valid : α → Bool
  names_encode : ∀ a, (encode a).map Prod.fst = names
  decode_encode : ∀ a look, valid a = true → (∀ x ∈ encode a, look x.1 = some x.2) →
    decode look = some a

namespace Fields

def nil : Fields φ Unit where
  names := []
  encode _ := []
  decode _ := some ()
  valid _ := true
  names_encode _ := rfl
  decode_encode _ _ _ _ := rfl

/-- A field, with its default where it may be left out. -/
def field (name : String) (c : Codec φ β) (default : Option β) (rest : Fields φ α) :
    Fields φ (β × α) where
  names := name :: rest.names
  encode x := (name, c.encode x.1) :: rest.encode x.2
  decode look := do
    let b ← match look name with
      | some v => c.decode v
      | none => default
    let a ← rest.decode look
    some (b, a)
  valid x := c.valid x.1 && rest.valid x.2
  names_encode x := by rw [List.map_cons, rest.names_encode]
  decode_encode x look h hlook := by
    rw [Bool.and_eq_true] at h
    have hname : look name = some (c.encode x.1) := hlook (name, c.encode x.1) List.mem_cons_self
    have hrest := rest.decode_encode x.2 look h.2 fun y hy => hlook y (List.mem_cons_of_mem _ hy)
    simp [hname, c.decode_encode _ h.1, hrest]

/-- A field of one value. -/
def literal [DecidableEq β] (name : String) (c : Codec φ β) (value : β) (required : Bool)
    (hvalue : c.valid value = true) (rest : Fields φ α) : Fields φ α where
  names := name :: rest.names
  encode x := (name, c.encode value) :: rest.encode x
  decode look := do
    let b ← match look name with
      | some v => c.decode v
      | none => if required then none else some value
    if b = value then rest.decode look else none
  valid := rest.valid
  names_encode x := by rw [List.map_cons, rest.names_encode]
  decode_encode x look h hlook := by
    have hname : look name = some (c.encode value) := hlook (name, c.encode value) List.mem_cons_self
    have hrest := rest.decode_encode x look h fun y hy => hlook y (List.mem_cons_of_mem _ hy)
    simp [hname, c.decode_encode _ hvalue, hrest]

@[simp] theorem nil_names : (nil : Fields φ Unit).names = [] := rfl

@[simp] theorem field_names (name : String) (c : Codec φ β) (default : Option β)
    (rest : Fields φ α) : (field name c default rest).names = name :: rest.names := rfl

@[simp] theorem literal_names [DecidableEq β] (name : String) (c : Codec φ β) (value : β)
    (required : Bool) (hvalue : c.valid value = true) (rest : Fields φ α) :
    (literal name c value required hvalue rest).names = name :: rest.names := rfl

end Fields

/-- The value under a key: the last one of several. -/
def lookup (fields : List (String × JsonValue φ)) (name : String) : Option (JsonValue φ) :=
  (fields.reverse.find? fun x => x.1 = name).map Prod.snd

theorem lookup_mem {fields : List (String × JsonValue φ)} (hn : (fields.map Prod.fst).Nodup)
    {x : String × JsonValue φ} (hx : x ∈ fields) : lookup fields x.1 = some x.2 := by
  unfold lookup
  cases hfind : fields.reverse.find? fun y => decide (y.1 = x.1) with
  | none =>
    have hno := List.find?_eq_none.1 hfind x (List.mem_reverse.2 hx)
    simp at hno
  | some y =>
    have hy : y ∈ fields := List.mem_reverse.1 (List.mem_of_find?_eq_some hfind)
    have hkey : y.1 = x.1 := by simpa using List.find?_some hfind
    rw [List.inj_on_of_nodup_map hn hy hx hkey]
    rfl

/-- A closed model with its fields. -/
def Codec.record (f : Fields φ α) (hn : f.names.Nodup) : Codec φ α where
  encode a := .obj (f.encode a)
  decode
    | .obj fields =>
      if (fields.all fun x => f.names.contains x.1) = true then f.decode (lookup fields) else none
    | _ => none
  valid := f.valid
  decode_encode a h := by
    have hnames := f.names_encode a
    have hknown : ((f.encode a).all fun x => f.names.contains x.1) = true := by
      rw [List.all_eq_true]
      intro x hx
      rw [List.contains_iff_mem, ← hnames]
      exact List.mem_map_of_mem hx
    simp only
    rw [if_pos hknown]
    exact f.decode_encode a _ h fun x hx => lookup_mem (hnames ▸ hn) hx

/-! ### Unions -/

/-- The string under a key of an object. -/
def discriminator (key : String) : JsonValue φ → Option String
  | .obj fields =>
    match lookup fields key with
    | some (.str s) => some s
    | _ => none
  | _ => none

theorem discriminator_record (f : Fields φ α) (hn : f.names.Nodup) {key tag : String} {a : α}
    (h : (key, .str tag) ∈ f.encode a) :
    discriminator key ((Codec.record f hn).encode a) = some tag := by
  have hlook : lookup (f.encode a) key = some (.str tag) :=
    lookup_mem (f.names_encode a ▸ hn) h
  simp only [Codec.record, discriminator, hlook]

/-- A codec whose objects all say the same under the key of a union. -/
structure Variant (φ : Type) (key tag : String) (α : Type) extends Codec φ α where
  tagged : ∀ a, discriminator key (encode a) = some tag

namespace Variant

/-- A model that begins with its tag. -/
def record {key : String} (tag : String) (f : Fields φ α) (hkey : key ∉ f.names)
    (hn : f.names.Nodup) : Variant φ key tag α :=
  let g := f.literal key (Codec.str fun s => decide (s = tag)) tag false (decide_self tag)
  have hg : g.names.Nodup := List.nodup_cons.2 ⟨hkey, hn⟩
  { Codec.record g hg with
    tagged := fun _ => discriminator_record g hg List.mem_cons_self }

def view {key tag : String} (c : Variant φ key tag α) (into : α → β) (back : β → α)
    (h : ∀ b, into (back b) = b) : Variant φ key tag β :=
  { c.toCodec.view into back h with tagged := fun b => c.tagged (back b) }

end Variant

end CadPlot.JsonCodec
