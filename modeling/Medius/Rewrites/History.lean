import Medius.Lib.Steps
import Medius.Rewrites.Laws

/-! A `REWRITE` history: each call the API accepts changes the host's held rules, and its
frame the box's table. -/

namespace Medius.Rewrites

open Protocol Link Mock Medius.Types

inductive RewriteCall
  | set (rule : RewriteRule)
  | remove (rule : RewriteRule)
  | clear
  deriving DecidableEq

abbrev Sides := DesiredState × RewriteTable

def initial : Sides := (.default, .default)

/-- A frame reaches a box whose opt-in is on, or is too long to be one. -/
def deliver (t : RewriteTable) (frame : FrameType) (payload : List UInt8) :
    Except Error RewriteTable :=
  if payload.length > maxPayload then .error .frameTooLong
  else .ok (if frame = .rewrite then t.applyRewriteFrame true payload else t)

def accepted : DesiredState × Except Error RewriteTable → Option Sides
  | (d, .ok t) => some (d, t)
  | (_, .error _) => none

def next (s : Sides) : RewriteCall → Option Sides
  | .set rule => accepted (Device.setRewrite true (deliver s.2) s.1 rule)
  | .remove rule => accepted (Device.removeRewrite (deliver s.2) s.1 rule)
  | .clear => accepted (Device.clearRewrite (deliver s.2) s.1)

def InStep (s : Sides) : Prop := s.1.heldRewrites = boxRules s.2 ∧ s.2.full = false

/-- The longest match of a removal whose frame the box takes. -/
abbrev removalMatchMax : Nat := 250

/-- A removal with the whole-table clear's address takes no other rule with it. -/
def Spares (s : Sides) : RewriteCall → Prop
  | .remove rule => rule.class_ = .any → rule.id = rewriteClearId →
      rule.matchBytes.length ≤ removalMatchMax →
        ∀ r ∈ s.1.heldRewrites, r.key = (Device.toStored rule).key
  | _ => True

instance (s : Sides) : DecidablePred (Spares s) := fun c => by
  unfold Spares
  split <;> infer_instance

/-- The host's rules are the box's, each at an address the box takes, within the pool. -/
structure Mirrored (s : Sides) : Prop where
  rules : boxRules s.2 = s.1.rewrites
  full : s.2.full = false
  keyed : (s.1.rewrites.map StoredRewrite.key).Nodup
  held : ∀ r ∈ s.1.rewrites, Addressable r
  pool : (s.1.rewrites.map (·.payload.length)).sum ≤ rewritePayloadPool

theorem Mirrored.inStep {s : Sides} (h : Mirrored s) : InStep s := ⟨h.rules.symm, h.full⟩

theorem Mirrored.initial : Mirrored initial where
  rules := rfl
  full := rfl
  keyed := List.nodup_nil
  held := fun _ h => absurd h List.not_mem_nil
  pool := Nat.zero_le _

theorem poolExcept_le (l : List StoredRewrite) (key : RewriteWireKey) :
    poolExcept l key ≤ (l.map (·.payload.length)).sum := by
  refine (List.filter_sublist.map _).sum_le_sum ?_
  exact fun _ _ => Nat.zero_le _

/-- A rule let in takes the pool no further than its checks allow. -/
theorem poolSum_setLast {l : List StoredRewrite} {r : StoredRewrite}
    (h : (l.map StoredRewrite.key).Nodup)
    (hpool : (l.map (·.payload.length)).sum ≤ rewritePayloadPool) (hroom : Room l r) :
    ((Keyed.setLast StoredRewrite.key l r).map (·.payload.length)).sum ≤ rewritePayloadPool := by
  by_cases hr : r ∈ l
  · rwa [Keyed.setLast_of_mem _ h hr]
  · rw [Keyed.setLast_of_not_mem _ h hr, List.map_append, List.sum_append]
    exact hroom.1

theorem accepted_send {d d' : DesiredState} {t : RewriteTable} {payload : List UInt8} {s : Sides}
    (h : accepted (Device.recorded d d' (deliver t .rewrite payload)) = some s) :
    payload.length ≤ maxPayload ∧ s = (d, t.applyRewriteFrame true payload) := by
  unfold deliver at h
  split at h
  · cases h
  next hlen =>
    cases h
    exact ⟨Nat.not_lt.mp hlen, rfl⟩

theorem rewritable_asU8 (c : RewriteClass) : rewritable c.asU8 := by cases c <;> decide

/-- What the API's checks promise the box. -/
structure Valid (r : StoredRewrite) : Prop where
  mask : r.mask.length = r.matchBytes.length
  address : Addressable r
  admissible : rewriteAdmissible r.class_ r.action r.offset r.payload
  carried : 11 + 2 * r.matchBytes.length + r.payload.length ≤ maxPayload

/-- The frame of a rule the box takes sets it, whatever the table holds. -/
theorem applyRewriteFrame_valid (t : RewriteTable) {r : StoredRewrite} (h : Valid r) :
    t.applyRewriteFrame true (frame 1 r) = t.set (boxed r) := by
  have hlen : r.matchBytes.length < 256 := Nat.lt_of_le_of_lt h.address.matchLen (by decide)
  rw [applyRewriteFrame_frame _ _ h.mask hlen, if_neg (Nat.not_lt.mpr h.carried),
    applyRule_set _ h.address h.admissible]

theorem valid_of_validateRule {rule : RewriteRule} (h : Device.validateRule rule = .ok ()) :
    Valid (Device.toStored rule) := by
  unfold Device.validateRule at h
  dsimp only at h
  split at h
  · cases h
  next hmask =>
    split at h
    · cases h
    next hlen =>
      split at h
      · cases h
      next hrel =>
        split at h
        · cases h
        next hact =>
          split at h
          · cases h
          next hroom =>
            split at h
            · cases h
            next hcap =>
              have hlen := Nat.not_lt.mp hlen
              refine ⟨(not_not.mp hmask).symm, ⟨rewritable_asU8 _,
                Direction.asU8_le_neg.mpr (Bool.eq_false_iff.mpr hrel), hlen⟩,
                ?_, ?_⟩
              · refine (rewriteAdmissible_toStored rule).trans ?_
                rw [Bool.eq_false_iff.mpr hcap, not_not.mp hact]
                rfl
              · have hle : 2 * rule.matchBytes.length ≤ maxPayload - Device.entryHdr :=
                  (Nat.mul_le_mul_left 2 hlen).trans (by decide)
                simp only [Device.toStored, maxPayload]
                simp only [Device.entryHdr, maxPayload] at hroom hle
                omega

theorem room_of_capacity {d : DesiredState} {rule : RewriteRule}
    (h : Device.rewriteCapacity d rule = .ok ())
    (hpool : (d.rewrites.map (·.payload.length)).sum ≤ rewritePayloadPool) :
    Room d.rewrites (Device.toStored rule) := by
  unfold Device.rewriteCapacity at h
  simp only at h
  split at h
  · cases h
  next hfree =>
    split at h
    · cases h
    next hcount =>
      have hle := (poolExcept_le d.rewrites (Device.toStored rule).key).trans hpool
      refine ⟨?_, fun hnew => ?_⟩
      · change ¬rule.payload.length > rewritePayloadPool - poolExcept d.rewrites _ at hfree
        change poolExcept d.rewrites _ + rule.payload.length ≤ _
        omega
      · by_contra hlen
        refine hcount ⟨?_, Nat.not_lt.mp hlen⟩
        simpa [DesiredState.holdsRewrite] using hnew

theorem next_set {s s' : Sides} {rule : RewriteRule} (hs : next s (.set rule) = some s') :
    Valid (Device.toStored rule) ∧ Device.rewriteCapacity s.1 rule = .ok () ∧
      s' = ((s.1.applyRewrite (Device.toStored rule)).1,
        s.2.applyRewriteFrame true (frame 1 (Device.toStored rule))) := by
  unfold next Device.setRewrite at hs
  dsimp only at hs
  split at hs
  · cases hs
  next hvalid =>
    unfold Device.setRewriteChecked at hs
    simp only [Device.requireImperfect, if_true] at hs
    split at hs
    · cases hs
    next hcap =>
      obtain ⟨-, hs⟩ := accepted_send hs
      exact ⟨valid_of_validateRule hvalid, hcap, hs⟩

/-- A removal's frame carries the rule's address and no payload. -/
def removal (rule : RewriteRule) : StoredRewrite := { Device.toStored rule with payload := [] }

theorem next_remove {s s' : Sides} {rule : RewriteRule} (hs : next s (.remove rule) = some s') :
    rule.mask.length = rule.matchBytes.length ∧ 9 + 2 * rule.matchBytes.length ≤ maxPayload ∧
      s' = ((s.1.removeRewrite (Device.toStored rule).key).1,
        s.2.applyRewriteFrame true (frame 0 (removal rule))) := by
  unfold next Device.removeRewrite at hs
  dsimp only at hs
  split at hs
  · cases hs
  next hmask =>
    have hmask := (not_not.mp hmask).symm
    obtain ⟨hlen, hs⟩ := accepted_send hs
    refine ⟨hmask, ?_, hs⟩
    exact (length_frame 0 (r := removal rule) hmask).symm.le.trans
      hlen

theorem next_clear {s s' : Sides} (hs : next s .clear = some s') :
    s' = (s.1.clearRewrites, s.2.clear) := by
  unfold next Device.clearRewrite at hs
  exact (accepted_send hs).2

theorem Mirrored.set {s s' : Sides} (h : Mirrored s) {rule : RewriteRule}
    (hs : next s (.set rule) = some s') : Mirrored s' := by
  obtain ⟨hv, hcap, rfl⟩ := next_set hs
  have hroom := room_of_capacity hcap h.pool
  have hboxRoom := hroom
  rw [← h.rules] at hboxRoom
  have hbox : s.2.applyRewriteFrame true (frame 1 (Device.toStored rule)) =
      s.2.set (boxed (Device.toStored rule)) := applyRewriteFrame_valid _ hv
  have hrules := rewrites_applyRewrite s.1 (Device.toStored rule)
  refine ⟨?_, ?_, ?_, ?_, ?_⟩
  · rw [hrules, ← h.rules]
    exact (congrArg boxRules hbox).trans (boxRules_set hboxRoom)
  · exact (congrArg RewriteTable.full hbox).trans (full_set hboxRoom h.full)
  · rw [hrules]
    exact Keyed.setLast_nodup _ h.keyed _
  · rw [hrules]
    intro r hr
    obtain rfl | hr := Keyed.mem_setLast _ h.keyed hr
    · exact hv.address
    · exact h.held r hr
  · rw [hrules]
    exact poolSum_setLast h.keyed h.pool hroom

/-- The removal whose frame is the whole-table clear. -/
def IsClear (rule : RewriteRule) : Prop :=
  rule.class_ = .any ∧ rule.id = rewriteClearId ∧ rule.matchBytes.length ≤ removalMatchMax

instance : DecidablePred IsClear := fun _ => inferInstanceAs (Decidable (_ ∧ _ ∧ _))

/-- What a removal's frame leaves on the box. -/
theorem Mirrored.boxRules_remove {s s' : Sides} (h : Mirrored s) {rule : RewriteRule}
    (hs : next s (.remove rule) = some s') :
    s'.2.full = false ∧ boxRules s'.2 = if IsClear rule then [] else s'.1.rewrites := by
  obtain ⟨hmask, hlen, rfl⟩ := next_remove hs
  have hheld : ∀ e ∈ boxRules s.2, Addressable e := h.rules ▸ h.held
  have hlen' : rule.matchBytes.length < 256 := by
    simp only [maxPayload] at hlen
    omega
  have hbox := applyRewriteFrame_frame s.2 0 (r := removal rule) hmask hlen'
  have hhost := rewrites_removeRewrite s.1 (Device.toStored rule).key
  have hcarry : 11 + 2 * (removal rule).matchBytes.length + (removal rule).payload.length >
      maxPayload ↔ ¬rule.matchBytes.length ≤ removalMatchMax := by
    simp only [removal, Device.toStored, List.length_nil, removalMatchMax, maxPayload]
    omega
  dsimp only
  rw [hbox, hhost]
  by_cases hm : rule.matchBytes.length ≤ removalMatchMax
  · rw [if_neg (fun h => hcarry.mp h hm)]
    refine ⟨full_applyRule_remove _ h.full, ?_⟩
    rw [boxRules_applyRule_remove hheld, h.rules]
    refine if_congr ?_ rfl rfl
    exact and_congr (asU8_eq_any _) (and_iff_left hm).symm
  · rw [if_pos (hcarry.mpr hm), if_neg (fun hc => hm hc.2.2), h.rules]
    refine ⟨h.full, (Keyed.remove_of_not_mem _ fun r hr hk => hm ?_).symm⟩
    simp only [StoredRewrite.key, Prod.mk.injEq, Device.toStored] at hk
    exact hk.2.2.2.1 ▸ (h.held r hr).matchLen.trans (by decide)

theorem Mirrored.remove {s s' : Sides} (h : Mirrored s) {rule : RewriteRule}
    (hspare : Spares s (.remove rule)) (hs : next s (.remove rule) = some s') : Mirrored s' := by
  obtain ⟨hfull, hbox⟩ := h.boxRules_remove hs
  obtain ⟨-, -, rfl⟩ := next_remove hs
  have hrules := rewrites_removeRewrite s.1 (Device.toStored rule).key
  have hsub := hrules ▸ Keyed.remove_sublist StoredRewrite.key _ _
  refine ⟨?_, hfull, h.keyed.sublist (hsub.map _), fun r hr => h.held r (hsub.mem hr), ?_⟩
  · rw [hbox]
    split
    next hc =>
      have hall := hspare hc.1 hc.2.1 hc.2.2
      rw [hrules, Keyed.remove_eq_filter _ h.keyed]
      exact (List.filter_eq_nil_iff.mpr fun r hr => by simpa using hall r hr).symm
    · rfl
  · exact ((hsub.map _).sum_le_sum fun _ _ => Nat.zero_le _).trans h.pool

theorem Mirrored.clear {s s' : Sides} (hs : next s .clear = some s') : Mirrored s' := by
  obtain rfl := next_clear hs
  exact ⟨rfl, rfl, List.nodup_nil, fun _ h => absurd h List.not_mem_nil, Nat.zero_le _⟩

theorem Mirrored.step {s s' : Sides} {call : RewriteCall} (h : Mirrored s)
    (hspare : Spares s call) (hs : next s call = some s') : Mirrored s' := by
  cases call with
  | set rule => exact h.set hs
  | remove rule => exact h.remove hspare hs
  | clear => exact .clear hs

/-- One call keeps the tables together exactly when it spares the other rules. -/
theorem Mirrored.step_iff {s s' : Sides} {call : RewriteCall} (h : Mirrored s)
    (hs : next s call = some s') : InStep s' ↔ Spares s call := by
  refine ⟨fun hin => ?_, fun hspare => (h.step hspare hs).inStep⟩
  cases call with
  | set | clear => trivial
  | remove rule =>
    intro hany hid hm r hr
    obtain ⟨-, hbox⟩ := h.boxRules_remove hs
    rw [if_pos ⟨hany, hid, hm⟩] at hbox
    have hempty : s'.1.rewrites = [] := hin.1.trans hbox
    obtain ⟨-, -, rfl⟩ := next_remove hs
    rw [rewrites_removeRewrite, Keyed.remove_eq_filter _ h.keyed, List.filter_eq_nil_iff] at hempty
    simpa using hempty r hr

/-- After any calls whose removals spare the other rules, the tables agree and the box never
refused one for room, and the first removal that spares none is where they part. -/
theorem held_rewrites_in_step (calls : List RewriteCall) (s : Sides)
    (hspare : Steps.Guarded next Spares initial calls)
    (hrun : Steps.run next initial calls = some s) :
    InStep s ∧ ∀ call s', next s call = some s' → (InStep s' ↔ Spares s call) := by
  have h : Mirrored s :=
    Steps.run_induction (fun _ _ _ h hok hs => h.step hok hs) Mirrored.initial hspare hrun
  exact ⟨h.inStep, fun _ _ hs => h.step_iff hs⟩

def reportRule (id : UInt16) (payload : List UInt8) : RewriteRule where
  class_ := .hidIn
  id := id
  direction := .positive
  action := .patch
  offset := 2
  matchBytes := [0x81]
  mask := [0xFF]
  payload := payload

/-- A rule that answers to the clear's address. -/
def anyRule : RewriteRule where
  class_ := .any
  id := rewriteClearId
  direction := .both
  action := .pass
  offset := 0
  matchBytes := []
  mask := []
  payload := []

/-- An overwrite, the same rule again, a removal, and the wildcard rule set and removed alone. -/
def sparingCalls : List RewriteCall :=
  [.set (reportRule 1 [1]), .set (reportRule 2 [1]), .set (reportRule 1 [9, 9]),
    .set (reportRule 1 [9, 9]), .remove (reportRule 2 []), .clear, .set anyRule, .remove anyRule,
    .set (reportRule 3 [4])]

theorem sparingCalls_in_step : ∃ s, Steps.run next initial sparingCalls = some s ∧ InStep s :=
  ⟨_, rfl, (held_rewrites_in_step sparingCalls _ (by decide) rfl).1⟩

/-- Removing a wildcard rule that is not even held empties the box's table. -/
theorem remove_any_clears_box :
    ¬∀ (calls : List RewriteCall) (s : Sides), Steps.run next initial calls = some s →
      InStep s := by
  intro h
  have hin := h [.set (reportRule 1 [1]), .remove anyRule] _ rfl
  exact absurd hin.1 (by decide)

end Medius.Rewrites
