import Medius.Lib.BTreeMap
import Medius.Types.Direction

namespace Medius.Types

open Protocol

inductive CatchClass
  | button | key | media | axis | hidIn | hidOut | vendorInterrupt | vendorBulk | control | emit
  | bus | clipTransfer
  deriving DecidableEq

def CatchClass.asU8 : CatchClass → UInt8
  | .button => catchClsBtn
  | .key => catchClsKey
  | .media => catchClsMedia
  | .axis => catchClsAxis
  | .hidIn => catchClsHidIn
  | .hidOut => catchClsHidOut
  | .vendorInterrupt => catchClsVendIntr
  | .vendorBulk => catchClsVendBulk
  | .control => catchClsControl
  | .emit => catchClsEmit
  | .bus => catchClsBus
  | .clipTransfer => catchClsClipXfer

theorem CatchClass.asU8_injective : Function.Injective asU8 := by
  intro a b
  cases a <;> cases b <;> decide

theorem CatchClass.asU8_ne_any (c : CatchClass) : c.asU8 ≠ catchClsAny := by
  cases c <;> decide

def CatchClass.fromU8 (v : UInt8) : Option CatchClass :=
  if v = catchClsBtn then some .button
  else if v = catchClsKey then some .key
  else if v = catchClsMedia then some .media
  else if v = catchClsAxis then some .axis
  else if v = catchClsHidIn then some .hidIn
  else if v = catchClsHidOut then some .hidOut
  else if v = catchClsVendIntr then some .vendorInterrupt
  else if v = catchClsVendBulk then some .vendorBulk
  else if v = catchClsControl then some .control
  else if v = catchClsEmit then some .emit
  else if v = catchClsBus then some .bus
  else if v = catchClsClipXfer then some .clipTransfer
  else none

@[simp] theorem CatchClass.fromU8_asU8 (c : CatchClass) : fromU8 c.asU8 = some c := by
  cases c <;> rfl

def CatchClass.isInput : CatchClass → Bool
  | .button | .key | .media | .axis => true
  | _ => false

inductive TrafficClass
  | hidIn | hidOut | vendorInterrupt | vendorBulk | control | emit | bus | clipTransfer
  deriving DecidableEq

def TrafficClass.toCatch : TrafficClass → CatchClass
  | .hidIn => .hidIn
  | .hidOut => .hidOut
  | .vendorInterrupt => .vendorInterrupt
  | .vendorBulk => .vendorBulk
  | .control => .control
  | .emit => .emit
  | .bus => .bus
  | .clipTransfer => .clipTransfer

def TrafficClass.tryFrom : CatchClass → Except CatchClass TrafficClass
  | .hidIn => .ok .hidIn
  | .hidOut => .ok .hidOut
  | .vendorInterrupt => .ok .vendorInterrupt
  | .vendorBulk => .ok .vendorBulk
  | .control => .ok .control
  | .emit => .ok .emit
  | .bus => .ok .bus
  | .clipTransfer => .ok .clipTransfer
  | input => .error input

@[simp] theorem TrafficClass.tryFrom_toCatch (c : TrafficClass) : tryFrom c.toCatch = .ok c := by
  cases c <;> rfl

def TrafficClass.asU8 (c : TrafficClass) : UInt8 := c.toCatch.asU8

/-- How much of each packet to keep; `first 0` is the whole packet. -/
inductive Capture
  | whole
  | first (n : UInt8)
  deriving DecidableEq

def Capture.bytes : Capture → Option UInt8
  | .whole => none
  | .first n => if n = 0 then none else some n

def Capture.widest (self other : Capture) : Capture :=
  match self.bytes, other.bytes with
  | some a, some b => .first (max a b)
  | _, _ => .whole

def Capture.asU8 (c : Capture) : UInt8 := c.bytes.getD 0

def Capture.fromU8 (v : UInt8) : Capture := if v = 0 then .whole else .first v

/-- The one spelling a filter stores: `first 0` is written `whole`. -/
def Capture.normal (c : Capture) : Capture := c.bytes.elim .whole .first

structure FilterKey where
  class_ : Option CatchClass
  id : Option UInt16
  direction : Direction
  deriving DecidableEq

def FilterKey.code (k : FilterKey) : Nat :=
  ((k.class_.elim 0 fun c => c.asU8.toNat + 1) * 65537 + k.id.elim 0 fun i => i.toNat + 1) * 5
    + k.direction.asU8.toNat

theorem FilterKey.code_injective : Function.Injective code := by
  have hd : ∀ d : Direction, d.asU8.toNat < 5 := by intro d; cases d <;> decide
  have hi : ∀ i : Option UInt16, (i.elim 0 fun i => i.toNat + 1) < 65537 := by
    rintro (_ | i)
    · decide
    · exact Nat.succ_lt_succ i.toNat_lt
  rintro ⟨c, i, d⟩ ⟨c', i', d'⟩ h
  have hd₁ := hd d
  have hd₂ := hd d'
  have hi₁ := hi i
  have hi₂ := hi i'
  simp only [code] at h
  have hdir : d.asU8.toNat = d'.asU8.toNat := by omega
  have hid : (i.elim 0 fun i => i.toNat + 1) = i'.elim 0 fun i => i.toNat + 1 := by omega
  have hcls : (c.elim 0 fun c => c.asU8.toNat + 1) = c'.elim 0 fun c => c.asU8.toNat + 1 := by
    omega
  have hd' : d = d' := Direction.asU8_injective (UInt8.toNat_inj.mp hdir)
  have hi' : i = i' := by
    cases i <;> cases i' <;> simp_all [UInt16.toNat_inj]
  have hc' : c = c' := by
    cases c <;> cases c' <;> simp_all [UInt8.toNat_inj, CatchClass.asU8_injective.eq_iff]
  rw [hd', hi', hc']

instance : Coded FilterKey := ⟨FilterKey.code, FilterKey.code_injective⟩

instance : Std.TransCmp (@Coded.cmp FilterKey _) := inferInstance

/-- Subscription entry: what to observe, in which direction, and how much of each packet to
keep.  An `id` means something only within a class. -/
structure CatchFilter where
  class_ : Option CatchClass
  id : Option UInt16
  direction : Direction
  capture : Capture
  id_of_class : class_ = none → id = none
  deriving DecidableEq

namespace CatchFilter

def everything : CatchFilter := ⟨none, none, .both, .whole, fun _ => rfl⟩

def exact (class_ : CatchClass) (id : UInt16) : CatchFilter :=
  ⟨some class_, some id, .both, .whole, nofun⟩

def blanket (class_ : CatchClass) : CatchFilter := ⟨some class_, none, .both, .whole, nofun⟩

def withDirection (f : CatchFilter) (direction : Direction) : CatchFilter :=
  { f with direction := direction }

def withCapture (f : CatchFilter) (capture : Capture) : CatchFilter :=
  { f with capture := capture.normal }

def captureIsMeaningful (f : CatchFilter) : Bool :=
  f.capture = .whole || !f.class_.any CatchClass.isInput

def key (f : CatchFilter) : FilterKey := ⟨f.class_, f.id, f.direction⟩

def matchesClassOnly (f : CatchFilter) (class_ : CatchClass) : Bool :=
  f.class_.all (· = class_)

def matches_ (f : CatchFilter) (class_ : CatchClass) (id : UInt16) (direction : Direction) :
    Bool :=
  match f.class_ with
  | some c => c = class_ && f.id.all (· = id) && f.direction.admits direction
  | none => f.direction.admits direction

def wire (f : CatchFilter) : UInt8 × UInt16 :=
  (f.class_.elim catchClsAny CatchClass.asU8, f.id.getD catchIdAny)

/-- A class or id the box would not take addresses nothing, nor does an id in no class. -/
def fromWire (class_ : UInt8) (id : UInt16) (direction capture : UInt8) : Option CatchFilter := do
  let class_ ← if class_ = catchClsAny then some none else (CatchClass.fromU8 class_).map some
  let id := if id = catchIdAny then none else some id
  if h : class_ = none → id = none then
    return ⟨class_, id, ← Direction.fromU8 direction, .fromU8 capture, h⟩
  else none

@[simp] theorem withDirection_class (f : CatchFilter) (d : Direction) :
    (f.withDirection d).class_ = f.class_ := rfl

@[simp] theorem withDirection_id (f : CatchFilter) (d : Direction) :
    (f.withDirection d).id = f.id := rfl

@[simp] theorem withDirection_direction (f : CatchFilter) (d : Direction) :
    (f.withDirection d).direction = d := rfl

@[simp] theorem withCapture_class (f : CatchFilter) (c : Capture) :
    (f.withCapture c).class_ = f.class_ := rfl

@[simp] theorem withCapture_id (f : CatchFilter) (c : Capture) :
    (f.withCapture c).id = f.id := rfl

@[simp] theorem withCapture_direction (f : CatchFilter) (c : Capture) :
    (f.withCapture c).direction = f.direction := rfl

@[simp] theorem withCapture_key (f : CatchFilter) (c : Capture) :
    (f.withCapture c).key = f.key := rfl

@[simp] theorem withCapture_capture (f : CatchFilter) (c : Capture) :
    (f.withCapture c).capture = c.normal := rfl

end CatchFilter

end Medius.Types
