import Medius.Machine.Refine

/-! What the tables hold in every run: each keeps to its bounds and to what the box asks of an
entry, and a transform's ends are fields of the clone's. -/

namespace Medius.Machine

open Protocol Mock Medius.Types

/-- Both ends are fields the clone has. -/
def Fitted (caps : Caps) (t : MockTransform) : Prop :=
  transformFieldPresent caps true t.sclass t.sid ∧ transformFieldPresent caps true t.dclass t.did

def Fielded (s : State) : Prop := ∀ t ∈ s.transforms.transforms, Fitted s.caps t

/-- No test gives the device other capabilities. -/
def KeepsCaps : Box.Event → Prop
  | .script (.caps _) | .script (.mouseCaps _) | .script (.kbdCaps _) => False
  | _ => True

theorem present_up {caps : Caps} {cloneUp : Bool} {class_ : UInt8} {id : UInt16}
    (h : transformFieldPresent caps cloneUp class_ id) :
    transformFieldPresent caps true class_ id := by
  cases cloneUp with
  | true => exact h
  | false => cases h

namespace Fielded

theorem applyTransformFrame {s : State} (h : Fielded s) (p : List UInt8) :
    Fielded (s.applyTransformFrame p) := by
  change ∀ t ∈ (s.transforms.applyTransformFrame s.caps s.cloneUp p).transforms, Fitted s.caps t
  unfold TransformTable.applyTransformFrame
  split
  · dsimp only
    split
    · exact fun _ ht => absurd ht List.not_mem_nil
    split
    · rw [Transforms.transforms_remove]
      exact fun t ht => h t ((Keyed.remove_sublist _ _ _).subset ht)
    split
    · exact h
    next hok =>
      rw [not_or, not_or, not_or, not_not, not_not, not_not] at hok
      rw [Transforms.transforms_set]
      intro t ht
      obtain rfl | ht := Keyed.mem_setWithin _ _ ht
      · exact ⟨present_up hok.2.2.1, present_up hok.2.2.2⟩
      · exact h t ht
  · exact h

theorem applyTableFrame {s : State} (h : Fielded s) (ty : FrameType) (p : List UInt8) :
    Fielded (s.applyTableFrame ty p) := by
  cases ty with
  | transform => exact h.applyTransformFrame p
  | option =>
    change Fielded (s.applyOptionFrame p)
    unfold State.applyOptionFrame
    split
    · split
      · split <;> exact h
      · exact h
    · exact h
  | _ => exact h

theorem empty {b : Box} (h : b.tables.transforms = .default) : Fielded b.tables := by
  intro t ht
  rw [h] at ht
  exact absurd ht List.not_mem_nil

section Steps

variable {digest : List UInt8 → Vector UInt8 32} {b : Box} {now : Nat}

theorem presentPatches (h : Fielded b.tables) : Fielded b.presentPatches.tables := by
  rw [tables_presentPatches]
  split
  · exact h
  · exact fun _ ht => absurd ht List.not_mem_nil

theorem advance (h : Fielded b.tables) (now : Nat) : Fielded (b.advance now).tables :=
  advance_keeps (P := fun b => Fielded b.tables) h (fun _ h => h) (fun _ h => h) (fun _ h => h)
    (fun _ h => h.presentPatches) fun _ _ => empty rfl

theorem restart (b : Box) (now : Nat) : Fielded (b.restart now).tables := empty rfl

theorem applyFrame (h : Fielded b.tables) (now : Nat) (ty : FrameType) (p : List UInt8) :
    Fielded (b.applyFrame now ty p).tables := by
  by_cases hpatch : ty = .patch
  · subst hpatch
    change Fielded (b.applyPatchFrame p).tables
    rw [tables_applyPatchFrame]
    split
    · exact h
    · exact fun _ ht => absurd ht List.not_mem_nil
  by_cases hreset : ty = .reset
  · subst hreset
    change Fielded (b.applyResetFrame now p).tables
    unfold Box.applyResetFrame
    split
    · exact h
    · dsimp only
      split <;> exact empty rfl
  by_cases hreboot : ty = .rebootDl
  · subst hreboot
    change Fielded (b.applyRebootDlFrame now p).tables
    obtain hbox | hbox := applyRebootDlFrame_cases b now p
    · rw [hbox]
      exact h
    · exact hbox ▸ restart b now
  · rw [tables_applyFrame b now hpatch hreset hreboot]
    exact h.applyTableFrame ty p

theorem onFrame (h : Fielded b.tables) (now : Nat) (f : DecodedFrame) :
    Fielded (b.onFrame digest now f).1.tables := by
  obtain ⟨b', b'', ⟨_, hb'⟩, ⟨_, hb''⟩, heq⟩ := @onFrame_cases digest b now f
  obtain ⟨_, _, _, _, hreply⟩ := replied_reply digest (b'.applyFrame now f.ty f.payload) f
  have harrived : Fielded (arrived b now).tables := advance (b := { b with pcSeen := true }) h now
  have hran : Fielded (b'.applyFrame now f.ty f.payload).tables :=
    applyFrame (hb' ▸ harrived) now f.ty f.payload
  rw [heq, hb'', hreply]
  exact hran

theorem script (h : Fielded b.tables) {s : Box.Script} (hs : KeepsCaps (.script s)) :
    Fielded (b.script s).tables := by
  cases s with
  | caps | mouseCaps | kbdCaps => exact hs.elim
  | _ => exact h

theorem step (h : Fielded b.tables) (now : Nat) {e : Box.Event} (he : KeepsCaps e) :
    Fielded (b.step digest now e).1.tables := by
  cases e with
  | frame f => exact h.onFrame now f
  | restart => exact restart b now
  | linkLost => exact empty rfl
  | detach back =>
    change Fielded (b.detach now back).tables
    unfold Box.detach
    dsimp only
    split <;> exact empty rfl
  | attach =>
    have h' := h.advance now
    change Fielded (b.attach now).tables
    unfold Box.attach
    dsimp only
    split
    · exact h'
    · split <;> exact h'
  | packet class_ id direction head =>
    change Fielded (b.clipPacket class_ id direction head).1.tables
    unfold Box.clipPacket
    split <;> exact h
  | script s => exact h.script he

end Steps

end Fielded

variable {digest : List UInt8 → Vector UInt8 32} {ok : Box.Event → Prop} {t : Nat} {b : Box}

theorem fielded_of_reachable (h : Box.Reachable digest ok t b) (hok : ∀ e, ok e → KeepsCaps e) :
    Fielded b.tables := by
  induction h with
  | default => exact .empty rfl
  | step e he _ _ ih => exact ih.step _ (hok e he)

/-- Whatever a host sends, checked by it or not: no table outgrows its places or its pool, no key
is in one twice, each entry is one the box's own checks let in, and without a clone there is
neither a lock nor a transform.  While the capabilities stay, a transform's ends are there. -/
theorem tables_bounded (h : Box.Reachable digest ok t b) :
    Rules b.rewrites.rewrites ∧ Pairs b.transforms.transforms ∧ Triggers b.packetTriggers ∧
      Patches b.patches ∧ Patches b.patchPresented ∧ Locks.BoxWf b.table ∧
      (b.cloneUp = false → b.table = .default ∧ b.transforms = .default) ∧
      ((∀ e, ok e → KeepsCaps e) →
        ∀ t ∈ b.transforms.transforms, Fitted (fieldCaps b.caps) t) := by
  have hsound := sound_of_reachable h
  exact ⟨hsound.rules, hsound.pairs, hsound.packets, hsound.patches, hsound.presented,
    hsound.locks, fun hdown => ⟨hsound.downLocks hdown, hsound.downPairs hdown⟩,
    fielded_of_reachable h⟩

theorem tables_bounded_furnished :
    let b := furnished
    (b.rewrites.rewrites.length = 2 ∧ b.transforms.transforms.length = 1 ∧
      b.packetTriggers.length = 1 ∧ b.patches.length = 2 ∧ b.patchPresented.length = 2 ∧
      (b.table.offered false).length = 2) ∧
    Rules b.rewrites.rewrites ∧ Pairs b.transforms.transforms ∧ Triggers b.packetTriggers ∧
      Patches b.patches ∧ Patches b.patchPresented ∧ Locks.BoxWf b.table ∧
      (b.cloneUp = false → b.table = .default ∧ b.transforms = .default) ∧
      ∀ t ∈ b.transforms.transforms, Fitted (fieldCaps b.caps) t := by
  obtain ⟨hrules, hpairs, htriggers, hpatches, hpresented, hlocks, hdown, hfitted⟩ :=
    tables_bounded (@reachable_furnished KeepsCaps fun _ => trivial)
  exact ⟨by decide +kernel, hrules, hpairs, htriggers, hpatches, hpresented, hlocks, hdown,
    hfitted fun _ he => he⟩

end Medius.Machine
