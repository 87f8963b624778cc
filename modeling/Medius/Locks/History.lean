import Medius.Device.Lock
import Medius.Lib.Steps
import Medius.Locks.Replay

/-! A `LOCK` history: each command the API lets through goes into the host's held state and
into the box's table. -/

namespace Medius.Locks

open Protocol Link Mock Medius.Types

structure LockCall where
  scope : LockScope
  direction : Direction
  scale : Int16
  deriving DecidableEq

def LockCall.command (c : LockCall) : Except Error Command :=
  Device.lockCommand c.scope.classId.1 c.scope.classId.2 c.direction c.scale

abbrev Sides := DesiredState × LockTable

def initial (n : UInt8) : Sides := (DesiredState.default.noteDeclaredButtons n, .default)

def next (n : UInt8) (s : Sides) (c : LockCall) : Option Sides :=
  match c.command with
  | .error _ => none
  | .ok cmd => some ((s.1.applyLock cmd.1 cmd.2).1, applyCommand n s.2 cmd)

/-- The ids a history names: declared buttons, real keys, media other than the free slot. -/
def InRange (n : UInt8) : LockScope → Prop
  | .target (.usage ⟨.button, id⟩) => id.toNat < n.toNat
  | .target (.usage ⟨.key, id⟩) => 0x04 ≤ id ∧ id ≤ 0xFF
  | .target (.usage ⟨.media, id⟩) => id ≠ 0
  | _ => True

/-- A command inside the ids above, after which no more media are held than the box has
slots. -/
def InDomain (n : UInt8) (s : Sides) (c : LockCall) : Prop :=
  InRange n c.scope ∧ ∀ s' ∈ next n s c, (heldMedia s'.1).length ≤ mediaLockMax

/-- The command is not a button blanket on one edge over a button held on the other. -/
def Covers (s : Sides) (c : LockCall) : Prop := ∀ cmd, c.command = .ok cmd → BlanketCovers s.1 cmd

instance (n : UInt8) : DecidablePred (InRange n) := by
  intro scope
  unfold InRange
  split <;> infer_instance

instance (n : UInt8) (s : Sides) : DecidablePred (InDomain n s) := fun _ => by
  unfold InDomain
  infer_instance

theorem lockDirection_ok {class_ : UInt8} {d d' : Direction}
    (h : Device.lockDirection class_ d = .ok d') :
    (class_ ≠ lockClsAxis → d'.isRelative = false) ∧ (class_ = lockClsMedia → d' = .both) := by
  unfold Device.lockDirection at h
  split at h
  next haxis =>
    cases h
    refine ⟨fun h => absurd haxis h, fun h => ?_⟩
    rw [haxis] at h
    exact absurd h (by decide)
  next haxis =>
    split at h
    · cases h
    next hrel =>
      cases h
      split
      next => exact ⟨fun _ => rfl, fun _ => rfl⟩
      next hmedia => exact ⟨fun _ => Bool.eq_false_iff.mpr hrel, fun h => absurd h hmedia⟩

theorem lockCommand_ok {class_ : UInt8} {id : UInt16} {d : Direction} {scale : Int16}
    {c : Command} (h : Device.lockCommand class_ id d scale = .ok c) :
    ∃ d' : Direction, c = ((class_, id, d'.asU8), scale) ∧
      (class_ ≠ lockClsAxis → d'.isRelative = false ∧ 0 ≤ scale) ∧
      (class_ = lockClsMedia → d' = .both) := by
  unfold Device.lockCommand at h
  split at h
  · cases h
  · split at h
    · cases h
    next hneg =>
      cases hdir : Device.lockDirection class_ d with
      | error e =>
        rw [hdir] at h
        cases h
      | ok d' =>
        rw [hdir] at h
        cases h
        obtain ⟨hrel, hmedia⟩ := lockDirection_ok hdir
        refine ⟨d', rfl, fun hc => ⟨hrel hc, ?_⟩, hmedia⟩
        exact Int16.not_lt.mp fun hlt => hneg ⟨hlt, hc⟩

/-- The API's checks and the id ranges leave exactly the accepted commands. -/
theorem accepted_of_call {n : UInt8} (hn : n ≤ maxButtons) {call : LockCall} {c : Command}
    (h : call.command = .ok c) (hr : InRange n call.scope) : Accepted n.toNat c := by
  obtain ⟨scope, direction, scale⟩ := call
  obtain ⟨d, rfl, hmom, hmedia⟩ := lockCommand_ok h
  match scope with
  | .target (.axis a) => cases a with
    | x => exact .axis 0 d scale
    | y => exact .axis 1 d scale
    | wheel => exact .axis 2 d scale
    | pan => exact .axis 3 d scale
  | .target (.usage ⟨.button, id⟩) =>
    obtain ⟨hrel, hs⟩ := hmom (show lockClsBtn ≠ lockClsAxis by decide)
    have hid : UInt16.ofNat id.toNat = id := UInt16.ofNat_toNat
    have hlt : id.toNat < 16 := Nat.lt_of_lt_of_le hr (UInt8.le_iff_toNat_le.mp hn)
    have hacc := Accepted.button (b := ⟨id.toNat, hlt⟩) hr hrel hs
    simp only [hid] at hacc
    exact hacc
  | .target (.usage ⟨.key, id⟩) =>
    obtain ⟨hrel, hs⟩ := hmom (show lockClsKey ≠ lockClsAxis by decide)
    have hlo : 4 ≤ id.toNat := UInt16.le_iff_toNat_le.mp hr.1
    have hhi : id.toNat ≤ 255 := UInt16.le_iff_toNat_le.mp hr.2
    have hmod : id.toUInt8.toNat = id.toNat := by
      rw [UInt16.toNat_toUInt8]
      omega
    have hid : id.toUInt8.toUInt16 = id := by
      rw [← UInt16.toNat_inj, UInt8.toNat_toUInt16, hmod]
    have hu : 0x04 ≤ id.toUInt8 := UInt8.le_iff_toNat_le.mpr (hmod ▸ hlo)
    have hacc := Accepted.key (n := n.toNat) hu hrel hs
    rw [hid] at hacc
    exact hacc
  | .target (.usage ⟨.media, id⟩) =>
    obtain ⟨hrel, hs⟩ := hmom (show lockClsMedia ≠ lockClsAxis by decide)
    obtain rfl := hmedia rfl
    by_cases hall : id = lockIdAll
    · subst hall
      exact .mediaAll hs
    · exact @Accepted.media _ ⟨id, hr, hall⟩ _ hs
  | .blanket .button =>
    obtain ⟨hrel, hs⟩ := hmom (show lockClsBtn ≠ lockClsAxis by decide)
    exact .buttons hrel hs
  | .blanket .key =>
    obtain ⟨hrel, hs⟩ := hmom (show lockClsKey ≠ lockClsAxis by decide)
    exact .keys hrel hs
  | .blanket .media =>
    obtain ⟨hrel, hs⟩ := hmom (show lockClsMedia ≠ lockClsAxis by decide)
    obtain rfl := hmedia rfl
    exact .mediaAll hs

/-- The host's rows are the box's. -/
structure Mirrored (n : UInt8) (s : Sides) : Prop where
  host : HostWf n.toNat s.1
  box : BoxWf s.2
  rows : Agree (hostRows s.1) s.2
  media : (heldMedia s.1).length ≤ mediaLockMax

theorem Mirrored.initial {n : UInt8} (hn : n ≤ maxButtons) : Mirrored n (initial n) where
  host := HostWf.default n hn
  box := BoxWf.default
  rows := by
    have hrow : ∀ a, hostRow (Locks.initial n).1 a = Slots.default :=
      fun _ => Std.ExtTreeMap.getD_empty
    have hclear : hostRows (Locks.initial n).1 = Rows.clear := by
      funext a
      simp only [hostRows, hrow, ne_eq, not_true, and_false, ite_self, Rows.clear]
    rw [hclear]
    exact Agree.clear
  media := show (heldMedia DesiredState.default).length ≤ mediaLockMax by decide

theorem Covers.of_command {call : LockCall} {c : Command} (h : call.command = .ok c)
    (hc : ¬(c.1.1 = lockClsBtn ∧ c.1.2.1 = lockIdAll) ∨ c.1.2.2 = lockDirBoth) (s : Sides) :
    Covers s call := by
  intro c' h'
  cases h.symm.trans h'
  intro hcls hid hdir
  obtain hb | hb := hc
  · exact absurd ⟨hcls, hid⟩ hb
  · exact absurd hb hdir

theorem next_eq_some {n : UInt8} {s s' : Sides} {call : LockCall} (h : next n s call = some s') :
    ∃ c, call.command = .ok c ∧ s' = ((s.1.applyLock c.1 c.2).1, applyCommand n s.2 c) := by
  unfold next at h
  split at h
  · cases h
  next c hc => exact ⟨c, hc, (Option.some.inj h).symm⟩

theorem Accepted.media_id {n : Nat} {c : Command} (hc : Accepted n c)
    (hcls : c.1.1 = lockClsMedia) (hid : c.1.2.1 ≠ lockIdAll) :
    ∃ id : MediaId, c.1 = (lockClsMedia, id.val, Direction.both.asU8) := by
  cases hc with
  | axis => exact absurd (show lockClsAxis = lockClsMedia from hcls) (by decide)
  | buttons | button => exact absurd (show lockClsBtn = lockClsMedia from hcls) (by decide)
  | keys | key => exact absurd (show lockClsKey = lockClsMedia from hcls) (by decide)
  | mediaAll => exact absurd rfl hid
  | @media id => exact ⟨id, rfl⟩

/-- A media usage a step locks is held after it, with every one held before. -/
theorem HostWf.mem_heldMedia_applyLock {n : Nat} {d : DesiredState} (hwf : HostWf n d) (hn : n ≤ 16)
    {id m : MediaId} {scale : Int16} (hs : 0 ≤ scale) (hon : scale < lockScalePass)
    (h : m = id ∨ hostRow d (lockClsMedia, m.val) ≠ Slots.default) :
    m.val ∈ heldMedia (d.applyLock (lockClsMedia, id.val, Direction.both.asU8) scale).1 := by
  have hacc : Accepted n ((lockClsMedia, id.val, Direction.both.asU8), scale) := .media hs
  refine (mem_heldMedia (hwf.applyLock hn hacc).no_clear _).mpr ⟨m.property.2, ?_⟩
  have hcls : lockClsMedia ≠ lockClsBtn := by decide
  rw [hostRow_applyLock_row hwf.no_clear (fun h => hcls h.1) (fun h => absurd h hcls)]
  by_cases hm : m = id
  · subst hm
    have hblock : momentaryScale lockClsMedia scale = lockScaleBlock := by
      rw [momentaryScale_eq_edge (by decide), decide_eq_true hon, if_pos rfl]
    rw [if_pos rfl, hblock]
    intro hdef
    exact absurd (congrFun hdef 0) (show lockScaleBlock ≠ lockScalePass by decide)
  · have hne : (lockClsMedia, m.val) ≠ (lockClsMedia, id.val) := fun h =>
      hm (Subtype.ext (Prod.mk.inj h).2)
    rw [if_neg hne]
    exact h.resolve_left hm

theorem hostRows_media (d : DesiredState) (hn : d.buttonCount.toNat ≤ 16) (m : UInt16) :
    hostRows d (lockClsMedia, m) = hostRow d (lockClsMedia, m) := by
  have hcls : lockClsMedia ≠ lockClsBtn := by decide
  have hmem : (lockClsMedia, m) ∉ buttonAddresses d.buttonCount.toNat := fun h =>
    hcls ((mem_buttonAddresses hn _).mp h).1
  rw [hostRows, if_neg (fun h => hcls (Prod.mk.inj h).1), if_neg (fun h => hmem h.1)]

theorem Mirrored.room {n : UInt8} (hn : n ≤ maxButtons) {s : Sides} {c : Command}
    (h : Mirrored n s) (hc : Accepted n.toNat c)
    (hmedia : (heldMedia (s.1.applyLock c.1 c.2).1).length ≤ mediaLockMax) : Room s.2 c := by
  have hn16 := UInt8.le_iff_toNat_le.mp hn
  intro hcls hid hon
  obtain ⟨id, hkey⟩ := hc.media_id hcls hid
  have hs : 0 ≤ c.2 := by
    cases hc with
    | axis => exact absurd (show lockClsAxis = lockClsMedia from hcls) (by decide)
    | buttons _ hs | button _ _ hs | keys _ hs | key _ _ hs | mediaAll hs | media hs => exact hs
  have hheld : ∀ m : MediaId, m = id ∨ hostRow s.1 (lockClsMedia, m.val) ≠ Slots.default →
      m.val ∈ heldMedia (s.1.applyLock c.1 c.2).1 := by
    rw [hkey]
    exact fun m => h.host.mem_heldMedia_applyLock hn16 hs hon
  refine h.rows.room h.box hmedia (fun m hm => hheld m (.inr ?_)) (fun _ _ => ?_) hcls hid hon
  · rwa [hostRows_media _ (h.host.count ▸ hn16)] at hm
  · have := hheld id (.inl rfl)
    rw [hkey] at this ⊢
    exact this

theorem Mirrored.step {n : UInt8} (hn : n ≤ maxButtons) {s s' : Sides} {call : LockCall}
    (h : Mirrored n s) (hdom : InDomain n s call) (hcov : Covers s call)
    (hs : next n s call = some s') : Mirrored n s' := by
  have hn16 := UInt8.le_iff_toNat_le.mp hn
  obtain ⟨c, hc, rfl⟩ := next_eq_some hs
  have hacc := accepted_of_call hn hc hdom.1
  have hmedia := hdom.2 _ hs
  have hroom := h.room hn hacc hmedia
  refine ⟨h.host.applyLock hn16 hacc, h.box.apply hn hacc hroom, ?_, hmedia⟩
  rw [hostRows_applyLock h.host hn16 (hcov c hc)]
  exact h.rows.apply hn h.box hacc hroom

theorem Mirrored.replay {n : UInt8} (hn : n ≤ maxButtons) {s : Sides} (h : Mirrored n s) :
    SameTable (replay n s.1.heldLocks) s.2 := by
  obtain ⟨hrows, hwf⟩ := h.host.agree_replay hn h.media
  exact SameTable.of_rows hwf h.box fun f => (hrows f).trans (h.rows f).symm

theorem SameTable.rows {t t' : LockTable} (h : SameTable t t') (f : Field) :
    boxRow t f = boxRow t' f := by
  cases f with
  | axis | button => simp only [boxRow, h.mouse]
  | keys => simp only [boxRow, h.keyBlanket]
  | key u => simp only [boxRow, h.keyPress, h.keyRelease]
  | mediaAll => simp only [boxRow, h.mediaBlanket]
  | media id => simp only [boxRow, List.contains_eq_mem, h.media.mem_iff]

/-- A blanket that does not cover a held row loses the slot it does not name. -/
theorem HostWf.covers_of_rows {n : Nat} {d : DesiredState} {c : Command} (hwf : HostWf n d)
    (hn : n ≤ 16)
    (h : ∀ f : Field, hostRows (d.applyLock c.1 c.2).1 f.address =
      Writes.writeAll act (hostRows d) (rowWrites n c) f.address) : BlanketCovers d c := by
  obtain ⟨⟨class_, id, dir⟩, scale⟩ := c
  intro hcls hall hdir id' hid' i hi
  simp only at hcls hall hdir hi
  subst hcls hall
  by_contra hpass
  have hheld : hostRow d (lockClsBtn, id') ≠ Slots.default := fun h => hpass (congrFun h i)
  have hne : (lockClsBtn, id') ≠ blanketAddress := fun h => hid' (Prod.mk.inj h).2
  have hblanket : hostRow d blanketAddress = Slots.default := by
    by_contra hb
    exact hheld (hwf.blanket_alone hb id' hid')
  have hmem : (lockClsBtn, id') ∈ buttonAddresses n := by
    by_contra hm
    exact hheld (hwf.hostRow_undeclared rfl hne hm)
  obtain ⟨b, hb, hbid⟩ := List.mem_map.mp hmem
  have hb := List.mem_range.mp hb
  have hrow := h (.button ⟨b, Nat.lt_of_lt_of_le hb hn⟩)
  have haddr : Field.address (.button ⟨b, Nat.lt_of_lt_of_le hb hn⟩) = (lockClsBtn, id') := hbid
  rw [haddr, writeAll_rowWrites_blanket hn _ _ ⟨rfl, rfl⟩, if_pos hmem] at hrow
  simp only [hostRows, buttonCount_applyLock, hwf.count, hostRow_applyLock_blanket, if_neg hne,
    hblanket, ne_eq, not_true, and_false, if_false, if_true, hmem, true_and] at hrow
  have hslot := congrFun hrow i
  rw [Slots.write_named _ hdir, Slots.write_named _ hdir] at hslot
  split at hslot
  next hw =>
    simp only [if_neg hi] at hslot
    exact hpass hslot.symm
  next hw =>
    simp only [if_neg hi] at hslot
    exact hpass hslot.symm

/-- One step keeps the tables together exactly when the command covers the rows held. -/
theorem Mirrored.step_iff {n : UInt8} (hn : n ≤ maxButtons) {s s' : Sides} {call : LockCall}
    (h : Mirrored n s) (hdom : InDomain n s call) (hs : next n s call = some s') :
    SameTable (Locks.replay n s'.1.heldLocks) s'.2 ↔ Covers s call := by
  refine ⟨fun hsame => ?_, fun hcov => (h.step hn hdom hcov hs).replay hn⟩
  have hn16 := UInt8.le_iff_toNat_le.mp hn
  obtain ⟨c, hc, rfl⟩ := next_eq_some hs
  have hacc := accepted_of_call hn hc hdom.1
  have hmedia := hdom.2 _ hs
  obtain ⟨hrows, -⟩ := (h.host.applyLock hn16 hacc).agree_replay hn hmedia
  have hbox := h.rows.apply hn h.box hacc (h.room hn hacc hmedia)
  intro c' hc'
  cases hc.symm.trans hc'
  exact h.host.covers_of_rows hn16 fun f =>
    (hrows f).symm.trans ((hsame.rows f).trans (hbox f))

/-- After any history whose button blankets cover the buttons held, a replay rebuilds the
box's table, and the first blanket that does not cover them is where it stops doing so. -/
theorem replay_rebuilds_table (n : UInt8) (hn : n ≤ maxButtons) (calls : List LockCall)
    (s : Sides) (hdom : Steps.Guarded (next n) (InDomain n) (initial n) calls)
    (hcov : Steps.Guarded (next n) Covers (initial n) calls)
    (hrun : Steps.run (next n) (initial n) calls = some s) :
    SameTable (replay n s.1.heldLocks) s.2 ∧
      ∀ call s', InDomain n s call → next n s call = some s' →
        (SameTable (replay n s'.1.heldLocks) s'.2 ↔ Covers s call) := by
  have h : Mirrored n s :=
    Steps.run_induction (fun _ _ _ h hok hs => h.step hn hok.1 hok.2 hs) (Mirrored.initial hn)
      (hdom.and hcov) hrun
  exact ⟨h.replay hn, fun _ _ hdom' hs => h.step_iff hn hdom' hs⟩

/-- A blanket on both edges over a button, and a media usage taken and released. -/
def coveredCalls : List LockCall :=
  [⟨.target (.usage ⟨.button, 0⟩), .negative, 0⟩, ⟨.blanket .button, .both, 0⟩,
    ⟨.target (.usage ⟨.button, 1⟩), .positive, 100⟩, ⟨.target (.axis .x), .against, -40⟩,
    ⟨.target (.usage ⟨.media, 0xCD⟩), .both, 0⟩]

theorem coveredCalls_covers : Steps.Guarded (next 5) Covers (initial 5) coveredCalls := by
  refine Steps.Guarded.of_forall (fun call hcall s => ?_) _
  simp only [coveredCalls, List.mem_cons, List.not_mem_nil, or_false] at hcall
  obtain rfl | rfl | rfl | rfl | rfl := hcall
  all_goals exact Covers.of_command rfl (by decide) s

theorem replay_rebuilds_coveredCalls : ∃ s : Sides,
    Steps.run (next 5) (initial 5) coveredCalls = some s ∧ SameTable (replay 5 s.1.heldLocks) s.2 :=
  ⟨_, rfl,
    (replay_rebuilds_table 5 (by decide) coveredCalls _ (by decide) coveredCalls_covers rfl).1⟩

/-- Button 0 locked on release, then every button on press: the host forgets the release. -/
def edgeCalls : List LockCall :=
  [⟨.target (.usage ⟨.button, 0⟩), .negative, 0⟩, ⟨.blanket .button, .positive, 0⟩]

theorem blanket_edge_drops_lock :
    ¬∀ (n : UInt8), n ≤ maxButtons → ∀ (calls : List LockCall) (s : Sides),
      Steps.Guarded (next n) (InDomain n) (initial n) calls →
      Steps.run (next n) (initial n) calls = some s → SameTable (replay n s.1.heldLocks) s.2 := by
  intro h
  have hsame := h 5 (by decide) edgeCalls _ (by decide) rfl
  have hslot := congrFun (congrFun hsame.mouse (buttonTarget ⟨0, by decide⟩)) 1
  exact absurd hslot (by decide)

end Medius.Locks
