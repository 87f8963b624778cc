import Medius.Mock.LockTable
import Medius.Types.Lock

namespace Medius.Mock

open Protocol Link Medius.Types

abbrev respLocksMaxn : Nat := 85

def slotDirections : Fin 4 → Direction := ![.positive, .negative, .with_, .against]

@[simp] theorem slotDirections_asU8 (i : Fin 4) : (slotDirections i).asU8 = slotDirs i := by
  revert i
  decide

/-- The axis or the button a row of the table is for. -/
def targetScope (t : Fin lockTgtCount) : LockScope :=
  if t.val < lockTgtBtnBase then
    .target (.axis (match t.val with
      | 0 => .x
      | 1 => .y
      | 2 => .wheel
      | _ => .pan))
  else .target (.usage ⟨.button, UInt16.ofNat (t.val - lockTgtBtnBase)⟩)

namespace LockTable

/-- In vector mode one relative scale, the lower of X's and Y's, is reported on both. -/
def reported (t : LockTable) (target : Fin lockTgtCount) (slot : Fin 4) (vector : Bool) : Int16 :=
  let sc := t.mouse target slot
  if ¬vector ∨ slot.val < lockSlotWith ∨ Axis.y.asU16.toNat < target.val then sc
  else min sc (t.mouse (1 - target) slot)

def mouseEntries (t : LockTable) (vector : Bool) (target : Fin lockTgtCount) : List LockEntry :=
  ((List.finRange 4).filter fun slot => t.reported target slot vector ≠ lockScalePass).map
    fun slot => ⟨targetScope target, slotDirections slot, t.reported target slot vector⟩

def keyBlanketEntries (t : LockTable) : List LockEntry :=
  ([(0x01, Direction.positive), (0x02, Direction.negative)].filter
    fun b => t.keyBlanket &&& b.1 ≠ 0).map fun b => ⟨.blanket .key, b.2, lockScaleBlock⟩

def mediaBlanketEntries (t : LockTable) : List LockEntry :=
  if t.mediaBlanket then [⟨.blanket .media, .both, lockScaleBlock⟩] else []

def mediaEntries (t : LockTable) : List LockEntry :=
  (t.media.filter fun id => id ≠ 0).map fun id =>
    ⟨.target (.usage ⟨.media, id⟩), .both, lockScaleBlock⟩

def keyEntries (t : LockTable) (u : UInt8) : List LockEntry :=
  let usage := LockScope.target (.usage ⟨.key, u.toUInt16⟩)
  (if t.keyPress u then [⟨usage, .positive, lockScaleBlock⟩] else []) ++
    (if t.keyRelease u then [⟨usage, .negative, lockScaleBlock⟩] else [])

/-- Everything `pack` offers the reply, in order: the unbounded keys come last. -/
def offered (t : LockTable) (vector : Bool) : List LockEntry :=
  (List.finRange lockTgtCount).flatMap (t.mouseEntries vector) ++ t.keyBlanketEntries ++
    t.mediaBlanketEntries ++ t.mediaEntries ++
    (List.range 256).flatMap fun u => t.keyEntries (UInt8.ofNat u)

/-- Past the cap an entry is dropped with no signal. -/
def push (out : List LockEntry) (e : LockEntry) : List LockEntry :=
  if out.length < respLocksMaxn then out ++ [e] else out

def pack (t : LockTable) (mode : BearingMode) : Locks :=
  ⟨(t.offered (mode = .vector)).foldl push []⟩

theorem foldl_push (es out : List LockEntry) :
    es.foldl push out = out ++ es.take (respLocksMaxn - out.length) := by
  induction es generalizing out with
  | nil => simp
  | cons e es ih =>
    rw [List.foldl_cons, ih, push]
    split
    next h =>
      have hlen : respLocksMaxn - out.length = respLocksMaxn - (out ++ [e]).length + 1 := by
        rw [List.length_append, List.length_singleton]
        omega
      rw [hlen, List.take_succ_cons, List.append_assoc, List.singleton_append]
    next h =>
      have hlen : respLocksMaxn - out.length = 0 := by omega
      rw [hlen, List.take_zero, List.take_zero]

theorem entries_pack (t : LockTable) (mode : BearingMode) :
    (t.pack mode).entries = (t.offered (mode = .vector)).take respLocksMaxn := foldl_push _ []

end LockTable

/-- One entry on the wire, field for field the `LOCK` frame that would set it. -/
def entryBytes (e : LockEntry) : List UInt8 :=
  e.scope.classId.1 :: toLeBytes e.scope.classId.2 ++ e.direction.asU8 :: toLeBytes e.scale.toUInt16

def locksPayload (l : Locks) : List UInt8 :=
  let entries := l.entries.take respLocksMaxn
  6 :: UInt8.ofNat entries.length :: entries.flatMap entryBytes

theorem length_flatMap_entryBytes (es : List LockEntry) :
    (es.flatMap entryBytes).length = 6 * es.length := by
  induction es with
  | nil => rfl
  | cons e es ih =>
    rw [List.flatMap_cons, List.length_append, ih, List.length_cons]
    change 6 + 6 * es.length = _
    omega

/-- A reply is never longer than a frame's payload. -/
theorem length_locksPayload (l : Locks) : (locksPayload l).length ≤ maxPayload := by
  have hlen : (l.entries.take respLocksMaxn).length ≤ 85 := List.length_take_le _ _
  simp only [locksPayload, List.length_cons, length_flatMap_entryBytes, maxPayload]
  omega

theorem reads_entry {e : LockEntry} (h : e.scope.Spelled) :
    Records.Reads Locks.readEntry entryBytes some e := by
  intro rest
  simp only [entryBytes, toLeBytes, List.cons_append, List.nil_append, Locks.readEntry,
    fromLeBytes_toLeBytes, decodeScope_classId h, Direction.fromU8_asU8]
  rfl

/-- What fits the reply is read back entry for entry. -/
theorem fromPayload_locksPayload {l : Locks} (hlen : l.entries.length ≤ respLocksMaxn)
    (h : ∀ e ∈ l.entries, e.scope.Spelled) : Locks.fromPayload (locksPayload l) = some l := by
  have hcount : (UInt8.ofNat l.entries.length).toNat = l.entries.length := by
    have hlen : l.entries.length ≤ 85 := hlen
    rw [UInt8.toNat_ofNat']
    omega
  have hdrop : (locksPayload l).drop 2 = l.entries.flatMap entryBytes ++ [] := by
    rw [locksPayload, List.take_of_length_le hlen]
    simp
  have hwalk := Records.walk_flatMap (fun e he => reads_entry (h e he)) hdrop
  rw [Locks.fromPayload]
  simp only [locksPayload, List.take_of_length_le hlen, List.getElem?_cons_succ,
    List.getElem?_cons_zero, Option.bind_eq_bind, Option.bind_some, hcount] at hwalk ⊢
  rw [hwalk]
  simp [List.reduceOption]

end Medius.Mock
