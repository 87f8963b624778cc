import Medius.Device.Delivery
import Medius.Lib.Steps
import Medius.Link.Tables
import Medius.Packets.Laws

/-! A packet-trigger history: each call the API accepts changes the host's held triggers, and its
frame the box's rows. -/

namespace Medius.Packets

open Protocol Link Mock Mock.PacketTriggers Medius.Types

inductive PacketCall
  | bind (t : ClipPacketTrigger)
  | unbind (t : ClipPacketTrigger)
  | clear
  | allow (allow : Bool)
  deriving DecidableEq

abbrev Sides := DesiredState × State

def initial (imperfect : Bool) (caps : Caps) (cloneUp : Bool) : Sides :=
  (.default, .empty imperfect caps cloneUp)

def next (s : Sides) : PacketCall → Option Sides
  | .bind t => Device.accepted (Device.bindPacket (Device.deliver s.2) s.1 t)
  | .unbind t => Device.accepted (Device.unbindPacket (Device.deliver s.2) s.1 t)
  | .clear => Device.accepted (Device.clearTriggers (Device.deliver s.2) s.1)
  | .allow allow => Device.accepted (Device.allowImperfectClones (Device.deliver s.2) s.1 allow)

/-- A consuming trigger is bound only under the opt-in, and the box is never asked for more than
it has room for. -/
def Admitted (s : Sides) : PacketCall → Prop
  | .bind t => (t.consume → s.2.imperfect) ∧ Fits (s.1.clipPacketBind t).clip.packetTriggers
  | _ => True

instance (s : Sides) : DecidablePred (Admitted s) := fun c => by
  unfold Admitted
  split <;> infer_instance

/-- The frames of the configuration that bind packet triggers. -/
def packetFrames (d : DesiredState) : List (FrameType × List UInt8) :=
  d.clip.packetTriggers.map fun t => (.clipTrigger, bindPacketPayload t)

structure InStep (s : Sides) : Prop where
  rows : s.2.packetTriggers = s.1.clip.packetTriggers.map boxed
  /-- A box with the same opt-in and no triggers comes to hold them all, in order. -/
  replay : ∀ box : State, box.packetTriggers = [] → box.imperfect = s.2.imperfect →
    (box.applyFrames (packetFrames s.1)).packetTriggers = s.2.packetTriggers ∧
      (box.applyFrames s.1.clipConfigFrames).packetTriggers = s.2.packetTriggers

/-- The box's rows are the host's triggers, each one the box takes, within its room. -/
structure Mirrored (s : Sides) : Prop where
  rows : s.2.packetTriggers = s.1.clip.packetTriggers.map boxed
  keyed : (s.1.clip.packetTriggers.map clipPacketKey).Nodup
  valid : ∀ t ∈ s.1.clip.packetTriggers, Device.validatePacketTrigger t = .ok ()
  consuming : ∀ t ∈ s.1.clip.packetTriggers, t.consume → s.2.imperfect
  fits : Fits s.1.clip.packetTriggers

theorem Mirrored.initial (imperfect : Bool) (caps : Caps) (cloneUp : Bool) :
    Mirrored (initial imperfect caps cloneUp) where
  rows := rfl
  keyed := List.nodup_nil
  valid := fun _ h => absurd h List.not_mem_nil
  consuming := fun _ h => absurd h List.not_mem_nil
  fits := ⟨Nat.zero_le _, Nat.zero_le _⟩

theorem payloads_packetFrames (d : DesiredState) :
    State.payloads .clipTrigger (packetFrames d) = d.clip.packetTriggers.map bindPacketPayload :=
  (State.payloads_map _ _ _ _).trans (if_pos rfl)

theorem payloads_clipConfigFrames (d : DesiredState) :
    State.payloads .clipTrigger d.clipConfigFrames =
      d.clip.triggers.values.map bindPayload ++ d.clip.packetTriggers.map bindPacketPayload := by
  rw [DesiredState.clipConfigFrames, clipSetPayloads, State.payloads_append, State.payloads_append,
    State.payloads_map .clipTrigger .clipSet, State.payloads_map .clipTrigger .clipTrigger,
    State.payloads_map .clipTrigger .clipTrigger, if_neg (by decide), if_pos rfl, if_pos rfl,
    List.nil_append]

theorem no_option_packetFrames (d : DesiredState) : ∀ f ∈ packetFrames d, f.1 ≠ .option := by
  intro f hf
  obtain ⟨t, -, rfl⟩ := List.mem_map.mp hf
  nofun

theorem no_option_clipConfigFrames (d : DesiredState) :
    ∀ f ∈ d.clipConfigFrames, f.1 ≠ .option := by
  intro f hf
  rw [DesiredState.clipConfigFrames, List.mem_append, List.mem_append] at hf
  obtain (hf | hf) | hf := hf
  all_goals
    obtain ⟨t, -, rfl⟩ := List.mem_map.mp hf
    nofun

theorem Mirrored.inStep {s : Sides} (h : Mirrored s) : InStep s where
  rows := h.rows
  replay := by
    intro box hempty himp
    have hbinds : (s.1.clip.packetTriggers.map bindPacketPayload).foldl
        (fun rows p => applyClipTriggerFrame rows s.2.imperfect p) [] = s.2.packetTriggers := by
      rw [h.rows]
      exact foldl_binds [] h.keyed h.fits h.valid h.consuming
    constructor
    · rw [State.applyFrames_eq (no_option_packetFrames s.1), payloads_packetFrames, hempty, himp]
      exact hbinds
    · rw [State.applyFrames_eq (no_option_clipConfigFrames s.1), payloads_clipConfigFrames,
        List.foldl_append, foldl_inputs, hempty, himp]
      exact hbinds

theorem next_bind {s s' : Sides} {t : ClipPacketTrigger} (hs : next s (.bind t) = some s') :
    Device.validatePacketTrigger t = .ok () ∧ s' = (s.1.clipPacketBind t,
      s.2.applyTableFrame .clipTrigger (bindPacketPayload t)) := by
  unfold next Device.bindPacket at hs
  dsimp only at hs
  split at hs
  · cases hs
  next hvalid => exact ⟨hvalid, Device.accepted_sentThen hs⟩

theorem next_unbind {s s' : Sides} {t : ClipPacketTrigger} (hs : next s (.unbind t) = some s') :
    ValidKey t ∧ s' = (s.1.clipPacketUnbind (clipPacketKey t),
      s.2.applyTableFrame .clipTrigger (clipPacketTriggerPayload t.class_.asU8 t.id
        t.direction.asU8 0 0 0 t.matchBytes t.mask)) := by
  unfold next Device.unbindPacket at hs
  dsimp only at hs
  split at hs
  · cases hs
  next hvalid => exact ⟨validKey_of_validate hvalid, Device.accepted_sentThen hs⟩

theorem next_clear {s s' : Sides} (hs : next s .clear = some s') :
    s' = (s.1.clipTriggersClear, { s.2 with packetTriggers := [] }) := by
  unfold next Device.clearTriggers at hs
  exact Device.accepted_sentThen hs

theorem next_allow_true {s s' : Sides} (hs : next s (.allow true) = some s') :
    s' = (s.1, { s.2 with imperfect := true }) := by
  unfold next Device.allowImperfectClones at hs
  exact Device.accepted_send hs

theorem next_allow_false {s s' : Sides} (hs : next s (.allow false) = some s') :
    s' = (s.1.clearRewrites.clipPacketDropConsuming.1,
      s.2.applyTableFrame .option (imperfectPayload false)) := by
  unfold next Device.allowImperfectClones at hs
  dsimp only at hs
  rw [if_neg Bool.false_ne_true] at hs
  exact Device.accepted_recorded hs

theorem packetTriggers_clipPacketBind (d : DesiredState) (t : ClipPacketTrigger) :
    (d.clipPacketBind t).clip.packetTriggers =
      Keyed.setInPlace clipPacketKey d.clip.packetTriggers t :=
  congrArg (fun d => d.clip.packetTriggers) (d.clipPacketBind_eq t)

theorem Mirrored.bind {s s' : Sides} (h : Mirrored s) {t : ClipPacketTrigger}
    (hadm : Admitted s (.bind t)) (hs : next s (.bind t) = some s') : Mirrored s' := by
  obtain ⟨hvalid, rfl⟩ := next_bind hs
  obtain ⟨hc, hfits⟩ := hadm
  have hheld := packetTriggers_clipPacketBind s.1 t
  rw [hheld] at hfits
  refine ⟨?_, ?_, ?_, ?_, ?_⟩
  · rw [hheld]
    change applyClipTriggerFrame s.2.packetTriggers s.2.imperfect (bindPacketPayload t) = _
    rw [h.rows]
    exact applyClipTriggerFrame_boxed hvalid hc hfits
  · rw [hheld]
    exact Keyed.setInPlace_nodup _ h.keyed t
  · rw [hheld]
    intro u hu
    obtain rfl | hu := Keyed.mem_setInPlace _ hu
    · exact hvalid
    · exact h.valid u hu
  · rw [hheld]
    intro u hu
    obtain rfl | hu := Keyed.mem_setInPlace _ hu
    · exact hc
    · exact h.consuming u hu
  · rwa [hheld]

/-- Triggers kept as they stand on both sides. -/
theorem Mirrored.filter {s s' : Sides} (h : Mirrored s) {p : ClipPacketTrigger → Bool}
    (hheld : s'.1.clip.packetTriggers = s.1.clip.packetTriggers.filter p)
    (hrows : s'.2.packetTriggers = (s.1.clip.packetTriggers.filter p).map boxed)
    (hc : ∀ t ∈ s.1.clip.packetTriggers, p t → t.consume → s'.2.imperfect) : Mirrored s' where
  rows := hrows.trans (congrArg _ hheld.symm)
  keyed := hheld ▸ h.keyed.sublist (List.filter_sublist.map _)
  valid := by
    rw [hheld]
    exact fun t ht => h.valid t (List.mem_filter.mp ht).1
  consuming := by
    rw [hheld]
    exact fun t ht => hc t (List.mem_filter.mp ht).1 (List.mem_filter.mp ht).2
  fits := by
    rw [hheld]
    exact h.fits.sublist List.filter_sublist

theorem Mirrored.unbind {s s' : Sides} (h : Mirrored s) {t : ClipPacketTrigger}
    (hs : next s (.unbind t) = some s') : Mirrored s' := by
  obtain ⟨hkey, rfl⟩ := next_unbind hs
  refine h.filter (p := fun u => clipPacketKey u ≠ clipPacketKey t) rfl ?_ fun u hu _ hc =>
    h.consuming u hu hc
  refine (applyClipTriggerFrame_unbind s.2.packetTriggers s.2.imperfect hkey).trans ?_
  rw [h.rows, Keyed.remove_map]
  exact congrArg _ (Keyed.remove_eq_filter clipPacketKey h.keyed _)

theorem Mirrored.allow_false {s s' : Sides} (h : Mirrored s)
    (hs : next s (.allow false) = some s') :
    s'.1.clip.packetTriggers = (s.1.clip.packetTriggers.filter fun t => !t.consume) ∧
      s'.2.packetTriggers = (s.1.clip.packetTriggers.filter fun t => !t.consume).map boxed := by
  obtain rfl := next_allow_false hs
  refine ⟨rfl, ?_⟩
  rw [← dropConsuming_boxed, ← h.rows]
  rfl

theorem Mirrored.step {s s' : Sides} {call : PacketCall} (h : Mirrored s)
    (hadm : Admitted s call) (hs : next s call = some s') : Mirrored s' := by
  cases call with
  | bind t => exact h.bind hadm hs
  | unbind t => exact h.unbind hs
  | clear =>
    obtain rfl := next_clear hs
    refine h.filter (p := fun _ => false) ?_ ?_ ?_
    · simp [DesiredState.clipTriggersClear]
    · simp
    · simp
  | allow allow =>
    cases allow with
    | true =>
      obtain rfl := next_allow_true hs
      exact ⟨h.rows, h.keyed, h.valid, fun _ _ _ => rfl, h.fits⟩
    | false =>
      obtain ⟨hheld, hrows⟩ := h.allow_false hs
      refine h.filter hheld hrows fun t _ hp hc => ?_
      rw [hc] at hp
      cases hp

/-- After any admitted calls the held triggers are the box's rows and rebuild them; from there an
overwrite keeps its place and an opt-out drops the consuming triggers, on both sides. -/
theorem packet_triggers_in_step (imperfect : Bool) (caps : Caps) (cloneUp : Bool)
    (calls : List PacketCall) (s : Sides)
    (hadm : Steps.Guarded next Admitted (initial imperfect caps cloneUp) calls)
    (hrun : Steps.run next (initial imperfect caps cloneUp) calls = some s) :
    InStep s ∧
      (∀ t s', Admitted s (.bind t) → next s (.bind t) = some s' →
        (∃ u ∈ s.1.clip.packetTriggers, clipPacketKey u = clipPacketKey t) →
          let overwritten := s.1.clip.packetTriggers.map fun u =>
            if clipPacketKey u = clipPacketKey t then t else u
          s'.1.clip.packetTriggers = overwritten ∧
            s'.2.packetTriggers = overwritten.map boxed) ∧
      ∀ s', next s (.allow false) = some s' →
        s'.1.clip.packetTriggers = (s.1.clip.packetTriggers.filter fun t => !t.consume) ∧
          s'.2.packetTriggers = PacketTriggers.dropConsuming s.2.packetTriggers := by
  have h : Mirrored s :=
    Steps.run_induction (fun _ _ _ h hok hs => h.step hok hs) (Mirrored.initial ..) hadm hrun
  refine ⟨h.inStep, ?_, ?_⟩
  · intro t s' hadm hs hmem
    have hrows := (h.bind hadm hs).rows
    obtain ⟨-, rfl⟩ := next_bind hs
    rw [packetTriggers_clipPacketBind, Keyed.setInPlace_eq_map _ h.keyed hmem] at hrows ⊢
    exact ⟨rfl, hrows⟩
  · intro s' hs
    obtain ⟨hheld, hrows⟩ := h.allow_false hs
    rw [h.rows, dropConsuming_boxed]
    exact ⟨hheld, hrows⟩

def reportTrigger (matchByte : UInt8) (consume : Bool) : ClipPacketTrigger where
  class_ := .hidIn
  id := 1
  direction := .positive
  action := .start
  matchBytes := [0x81, matchByte]
  mask := [0xFF, 0xFF]
  consume := consume
  oncePerRun := true
  selectorLen := 1

def bareClone : Caps where
  hasX := true
  hasY := true
  hasWheel := true
  pan := false
  nButtons := 5
  nKeys := 0
  hasConsumer := false

/-- Two triggers, the first made consuming in its place, a third bound and removed, and the
opt-out. -/
def optOutCalls : List PacketCall :=
  [.bind (reportTrigger 1 false), .bind (reportTrigger 2 false), .allow true,
    .bind (reportTrigger 1 true), .bind (reportTrigger 3 true), .unbind (reportTrigger 3 false),
    .allow false, .bind (reportTrigger 4 false)]

theorem optOutCalls_in_step : ∃ s, Steps.run next (initial false bareClone true) optOutCalls =
    some s ∧ InStep s :=
  ⟨_, rfl, (packet_triggers_in_step false bareClone true optOutCalls _ (by decide) rfl).1⟩

end Medius.Packets
