import Medius.Link.Tables
import Medius.Locks.Undo

/-! The tokens a change returns, and what they put back. -/

namespace Medius.Replay

open Link Locks Medius.Types

/-- The tokens handed out so far. -/
structure Tokens where
  locks : List LockUndo := []
  rewrites : List RewriteUndo := []
  transforms : List TransformUndo := []

namespace Tokens

def lock (ts : Tokens) (u : LockUndo) : Tokens := { ts with locks := u :: ts.locks }

def rewrite (ts : Tokens) (u : RewriteUndo) : Tokens := { ts with rewrites := u :: ts.rewrites }

def transform (ts : Tokens) (u : TransformUndo) : Tokens :=
  { ts with transforms := u :: ts.transforms }

/-- What an operation hands out. -/
def returned (ts : Tokens) (d : DesiredState) : DesiredOp → Tokens
  | .applyLock key scale => ts.lock (d.applyLock key scale).2
  | .applyRewrite rule => ts.rewrite (d.applyRewrite rule).2
  | .removeRewrite key => ts.rewrite (d.removeRewrite key).2
  | .applyTransform entry => ts.transform (d.applyTransform entry).2
  | .removeTransform key => ts.transform (d.removeTransform key).2
  | _ => ts

/-- A token put back is one handed out. -/
def Redeems (ts : Tokens) : DesiredOp → Prop
  | .restoreLock u => u ∈ ts.locks
  | .restoreRewrite u => u ∈ ts.rewrites
  | .restoreTransform u => u ∈ ts.transforms
  | _ => True

end Tokens

/-- A state some sequence of operations leaves, and the tokens they have handed out. -/
inductive Operated : DesiredState → Tokens → Prop
  | default : Operated .default {}
  | perform {d : DesiredState} {ts : Tokens} (op : DesiredOp) : Operated d ts → ts.Redeems op →
      Operated (d.perform op) (ts.returned d op)

/-- What a token puts back has the token's key. -/
structure Tokens.Keyed (ts : Tokens) : Prop where
  rewrites : ∀ u ∈ ts.rewrites, ∀ i r, u.prior = some (i, r) → r.key = u.key
  transforms : ∀ u ∈ ts.transforms, ∀ i t, u.prior = some (i, t) → t.key = u.key

theorem Tokens.Keyed.rewrite {ts : Tokens} (h : ts.Keyed) {u : RewriteUndo}
    (hu : ∀ i r, u.prior = some (i, r) → r.key = u.key) : (ts.rewrite u).Keyed :=
  ⟨List.forall_mem_cons.mpr ⟨hu, h.rewrites⟩, h.transforms⟩

theorem Tokens.Keyed.transform {ts : Tokens} (h : ts.Keyed) {u : TransformUndo}
    (hu : ∀ i t, u.prior = some (i, t) → t.key = u.key) : (ts.transform u).Keyed :=
  ⟨h.rewrites, List.forall_mem_cons.mpr ⟨hu, h.transforms⟩⟩

/-- The entry found under a key has it. -/
theorem key_of_found {α κ : Type} [DecidableEq κ] {key : α → κ} {l : List α} {k : κ} {i j : Nat}
    {a : α} (hi : (l.findIdx? fun e => key e = k) = some i)
    (ha : (l[i]?.map fun e => (i, e)) = some (j, a)) : key a = k := by
  obtain ⟨e, he, heq⟩ := Option.map_eq_some_iff.mp ha
  obtain rfl := (Prod.mk.inj heq).2
  exact Keyed.key_of_position key hi he

theorem applyRewrite_keyed (d : DesiredState) (rule : StoredRewrite) :
    ∀ i r, (d.applyRewrite rule).2.prior = some (i, r) → r.key = (d.applyRewrite rule).2.key := by
  unfold DesiredState.applyRewrite
  dsimp only
  split
  next i hi =>
    split
    · rintro j r hr
      obtain rfl := (Prod.mk.inj (Option.some.inj hr)).2
      rfl
    · exact fun j r hr => key_of_found hi hr
  next => exact nofun

theorem removeRewrite_keyed (d : DesiredState) (key : RewriteWireKey) :
    ∀ i r, (d.removeRewrite key).2.prior = some (i, r) → r.key = (d.removeRewrite key).2.key := by
  unfold DesiredState.removeRewrite
  split
  next i hi => exact fun j r hr => key_of_found hi hr
  next => exact nofun

theorem applyTransform_keyed (d : DesiredState) (entry : StoredTransform) :
    ∀ i t, (d.applyTransform entry).2.prior = some (i, t) →
      t.key = (d.applyTransform entry).2.key := by
  unfold DesiredState.applyTransform
  dsimp only
  split
  next i hi => exact fun j t ht => key_of_found hi ht
  next => exact nofun

theorem removeTransform_keyed (d : DesiredState) (key : TransformWireKey) :
    ∀ i t, (d.removeTransform key).2.prior = some (i, t) →
      t.key = (d.removeTransform key).2.key := by
  unfold DesiredState.removeTransform
  split
  next i hi => exact fun j t ht => key_of_found hi ht
  next => exact nofun

theorem keyed_returned {d : DesiredState} {ts : Tokens} (h : ts.Keyed) (op : DesiredOp) :
    (ts.returned d op).Keyed := by
  cases op with
  | applyRewrite rule => exact h.rewrite (applyRewrite_keyed d rule)
  | removeRewrite key => exact h.rewrite (removeRewrite_keyed d key)
  | applyTransform entry => exact h.transform (applyTransform_keyed d entry)
  | removeTransform key => exact h.transform (removeTransform_keyed d key)
  | _ => exact ⟨h.rewrites, h.transforms⟩

/-- Put back where its key is no longer held. -/
theorem nodup_insertIdx {α κ : Type} {key : α → κ} {l : List α} (h : (l.map key).Nodup) (i : Nat)
    {a : α} (ha : ∀ e ∈ l, key e ≠ key a) : ((l.insertIdx i a).map key).Nodup := by
  by_cases hi : i ≤ l.length
  · rw [((List.perm_insertIdx a l hi).map key).nodup_iff, List.map_cons, List.nodup_cons]
    refine ⟨fun hm => ?_, h⟩
    obtain ⟨e, he, hk⟩ := List.mem_map.mp hm
    exact ha e he hk
  · rwa [List.insertIdx_of_length_lt (Nat.lt_of_not_le hi)]

theorem keyed_restoreRewrite {d : DesiredState} (h : d.TablesKeyed) {u : RewriteUndo}
    (hu : ∀ i r, u.prior = some (i, r) → r.key = u.key) : (d.restoreRewrite u).TablesKeyed := by
  have hrest : ((d.rewrites.filter fun r => r.key ≠ u.key).map StoredRewrite.key).Nodup :=
    h.rewrites.sublist (List.filter_sublist.map _)
  unfold DesiredState.restoreRewrite
  dsimp only
  split
  next i r hp =>
    refine ⟨nodup_insertIdx hrest _ fun e he => ?_, h.transforms⟩
    rw [hu i r hp]
    exact of_decide_eq_true (List.mem_filter.mp he).2
  next => exact ⟨hrest, h.transforms⟩

theorem keyed_restoreTransform {d : DesiredState} (h : d.TablesKeyed) {u : TransformUndo}
    (hu : ∀ i t, u.prior = some (i, t) → t.key = u.key) : (d.restoreTransform u).TablesKeyed := by
  unfold DesiredState.restoreTransform
  split
  next i t hp =>
    split
    next j hj =>
      rw [← hu i t hp] at hj
      exact ⟨h.rewrites, (Keyed.map_key_set StoredTransform.key hj).symm ▸ h.transforms⟩
    next hnone =>
      refine ⟨h.rewrites, nodup_insertIdx h.transforms _ ?_⟩
      rw [hu i t hp]
      exact (Keyed.position_eq_none StoredTransform.key d.transforms u.key).mp hnone
  next => exact ⟨h.rewrites, h.transforms.sublist (List.filter_sublist.map _)⟩

/-- What an operation keeps of the tables, redeeming tokens of their own key. -/
theorem keyed_perform {d : DesiredState} {ts : Tokens} (h : d.TablesKeyed) (hts : ts.Keyed)
    {op : DesiredOp} (hop : ts.Redeems op) : (d.perform op).TablesKeyed := by
  cases op with
  | applyLock key scale =>
    obtain ⟨locks, order, hd⟩ := d.applyLock_frame key scale
    rw [DesiredState.perform, hd]
    exact ⟨h.rewrites, h.transforms⟩
  | applyRewrite rule => exact h.applyRewrite rule
  | removeRewrite key => exact h.removeRewrite key
  | restoreRewrite u => exact keyed_restoreRewrite h (hts.rewrites u hop)
  | applyTransform entry => exact h.applyTransform entry
  | removeTransform key => exact h.removeTransform key
  | restoreTransform u => exact keyed_restoreTransform h (hts.transforms u hop)
  | clearRewrites => exact ⟨List.nodup_nil, h.transforms⟩
  | clearTransforms => exact ⟨h.rewrites, List.nodup_nil⟩
  | clear => exact ⟨List.nodup_nil, List.nodup_nil⟩
  | apply usage action =>
    simp only [DesiredState.perform, DesiredState.apply]
    split <;> exact ⟨h.rewrites, h.transforms⟩
  | clipNoteRing seen status released =>
    simp only [DesiredState.perform, DesiredState.clipNoteRing]
    split <;> exact ⟨h.rewrites, h.transforms⟩
  | _ => exact ⟨h.rewrites, h.transforms⟩

theorem Operated.keyed {d : DesiredState} {ts : Tokens} (h : Operated d ts) :
    d.TablesKeyed ∧ ts.Keyed := by
  induction h with
  | default => exact ⟨⟨List.nodup_nil, List.nodup_nil⟩, nofun, nofun⟩
  | perform op _ hop ih => exact ⟨keyed_perform ih.1 ih.2 hop, keyed_returned ih.2 op⟩

/-- A change followed by its token is no change. -/
theorem restore_exact {d : DesiredState} {ts : Tokens} (h : Operated d ts) :
    (∀ key scale, (d.applyLock key scale).1.restoreLock (d.applyLock key scale).2 = d) ∧
      (∀ rule, (d.applyRewrite rule).1.restoreRewrite (d.applyRewrite rule).2 = d) ∧
      (∀ key, (d.removeRewrite key).1.restoreRewrite (d.removeRewrite key).2 = d) ∧
      (∀ entry, (d.applyTransform entry).1.restoreTransform (d.applyTransform entry).2 = d) ∧
      ∀ key, (d.removeTransform key).1.restoreTransform (d.removeTransform key).2 = d :=
  have hd := h.keyed.1
  ⟨restoreLock_applyLock d, d.restoreRewrite_applyRewrite hd.rewrites,
    d.restoreRewrite_removeRewrite hd.rewrites, d.restoreTransform_applyTransform,
    d.restoreTransform_removeTransform hd.transforms⟩

/-- A button blanket, and a transform. -/
def blanketHeld : DesiredState :=
  (DesiredState.default.perform
    (.applyLock (Protocol.lockClsBtn, Protocol.lockIdAll, Protocol.lockDirBoth)
      Protocol.lockScaleBlock)).perform (.applyTransform ⟨0, 0, 0, 0, 1⟩)

theorem restore_blanketHeld : ∃ ts, Operated blanketHeld ts ∧
    (blanketHeld.applyLock (Protocol.lockClsBtn, 2, Protocol.lockDirBoth)
      Protocol.lockScalePass).2.rows.length = 7 ∧
    (blanketHeld.applyLock (Protocol.lockClsBtn, 2, Protocol.lockDirBoth)
        Protocol.lockScalePass).1.restoreLock
      (blanketHeld.applyLock (Protocol.lockClsBtn, 2, Protocol.lockDirBoth)
        Protocol.lockScalePass).2 = blanketHeld ∧
    (blanketHeld.removeTransform (0, 0, 0, 1)).1.restoreTransform
      (blanketHeld.removeTransform (0, 0, 0, 1)).2 = blanketHeld := by
  have h := Operated.perform (.applyTransform ⟨0, 0, 0, 0, 1⟩)
    (Operated.perform (.applyLock (Protocol.lockClsBtn, Protocol.lockIdAll, Protocol.lockDirBoth)
      Protocol.lockScaleBlock) .default trivial) trivial
  obtain ⟨hlock, -, -, -, hremove⟩ := restore_exact h
  exact ⟨_, h, by decide +kernel, hlock _ _, hremove _⟩

end Medius.Replay
