import Medius.Locks.Host

namespace Medius.Locks

open Protocol Link

variable {n : Nat} {d : DesiredState} {c : Command}

theorem RowShape.default (a : Address) : RowShape a Slots.default where
  momentary _ := Momentary.default
  media _ := rfl

theorem RowShape.of_class {a b : Address} {r : Slots} (h : RowShape a r) (hab : a.1 = b.1) :
    RowShape b r where
  momentary hb := h.momentary (hab ▸ hb)
  media hb := h.media (hab.trans hb)

theorem Accepted.addressable (hc : Accepted n c) : Addressable n (c.1.1, c.1.2.1) := by
  cases hc with
  | axis a => exact .inr ⟨.axis a, trivial, rfl⟩
  | buttons => exact .inl rfl
  | @button b _ _ hb => exact .inr ⟨.button b, hb, rfl⟩
  | keys => exact .inr ⟨.keys, trivial, rfl⟩
  | @key u _ _ hu => exact .inr ⟨.key u, hu, rfl⟩
  | mediaAll => exact .inr ⟨.mediaAll, trivial, rfl⟩
  | @media id => exact .inr ⟨.media id, trivial, rfl⟩

theorem Accepted.shape (hc : Accepted n c) {r : Slots} (hr : RowShape (c.1.1, c.1.2.1) r) :
    RowShape (c.1.1, c.1.2.1) (r.write c.1.2.2 (momentaryScale c.1.1 c.2)) := by
  cases hc with
  | axis a =>
    exact ⟨fun h => absurd rfl h, fun h =>
      absurd (show lockClsAxis = lockClsMedia from h) (by decide)⟩
  | buttons hd hs | button hb hd hs =>
    refine ⟨fun h => (hr.momentary h).write hd (momentaryScale_one_bit h _), fun h => ?_⟩
    exact absurd (show lockClsBtn = lockClsMedia from h) (by decide)
  | keys hd hs | key hu hd hs =>
    refine ⟨fun h => (hr.momentary h).write hd (momentaryScale_one_bit h _), fun h => ?_⟩
    exact absurd (show lockClsKey = lockClsMedia from h) (by decide)
  | mediaAll hs | media hs =>
    exact ⟨fun h => (hr.momentary h).write (d := .both) rfl (momentaryScale_one_bit h _),
      fun _ => rfl⟩

theorem HostWf.default (n : UInt8) (hn : n ≤ maxButtons) :
    HostWf n.toNat (DesiredState.default.noteDeclaredButtons n) := by
  have hrow : ∀ a, hostRow (DesiredState.default.noteDeclaredButtons n) a = Slots.default :=
    fun _ => Std.ExtTreeMap.getD_empty
  have hmin : min n maxButtons = n := if_pos hn
  refine { count := ?_, no_clear := ?_, shape := ?_, addressable := ?_, blanket_alone := ?_ }
  · simp [DesiredState.buttonCount, DesiredState.noteDeclaredButtons, hmin]
  · intro a
    simp [DesiredState.noteDeclaredButtons, DesiredState.default]
  · intro a
    rw [hrow]
    exact RowShape.default a
  · exact fun a ha => absurd (hrow a) ha
  · exact fun ha => absurd (hrow _) ha

/-- The command writes a row of its class the way rows of the class look. -/
def Shapely (c : Command) : Prop :=
  ∀ r, RowShape (c.1.1, c.1.2.1) r →
    RowShape (c.1.1, c.1.2.1) (r.write c.1.2.2 (momentaryScale c.1.1 c.2))

theorem RowsWf.applyLock_blanket (hwf : RowsWf n d) {dir : UInt8} {scale : Int16}
    (hc : Shapely ((lockClsBtn, lockIdAll, dir), scale)) :
    RowsWf n (d.applyLock (lockClsBtn, lockIdAll, dir) scale).1 := by
  have hrow := hostRow_applyLock_blanket d dir scale
  refine { count := ?_, no_clear := ?_, shape := ?_, blanket_alone := ?_ }
  · rw [buttonCount_applyLock, hwf.count]
  · simp only [DesiredState.applyLock, and_self, if_true]
    exact no_clear_writeLockRow _ _ _ _ _ _ (no_clear_clearButtonRows hwf.no_clear _)
  · intro a
    rw [hrow]
    split
    next ha =>
      subst ha
      exact hc _ (hwf.shape _)
    next => split
            · exact RowShape.default a
            · exact hwf.shape a
  · intro _ id hid
    rw [hrow, if_neg (fun h => hid (Prod.mk.inj h).2), if_pos rfl]

theorem RowsWf.shape_burst (hwf : RowsWf n d) (hn : n ≤ 16)
    (hb : hostRow d blanketAddress ≠ Slots.default) (u : LockUndo) (a : Address) :
    RowShape a (hostRow (d.burstButtonBlanket u).1 a) := by
  rw [hostRow_burstButtonBlanket hwf hn hb]
  split
  · exact RowShape.default a
  · split
    next hm =>
      exact (hwf.shape blanketAddress).of_class ((mem_buttonAddresses hn a).mp hm).1.symm
    next => exact hwf.shape a

theorem RowsWf.applyLock_burst (hwf : RowsWf n d) (hn : n ≤ 16) {id : UInt16}
    (hid : id ≠ lockIdAll) (hb : hostRow d blanketAddress ≠ Slots.default) {dir : UInt8}
    {scale : Int16} (hc : Shapely ((lockClsBtn, id, dir), scale)) :
    RowsWf n (d.applyLock (lockClsBtn, id, dir) scale).1 := by
  have hrow := hostRow_applyLock_burst hwf hid hb dir scale
  have hshape := hwf.shape_burst hn hb ⟨[], d.mediaOrder⟩
  refine { count := ?_, no_clear := ?_, shape := ?_, blanket_alone := ?_ }
  · rw [buttonCount_applyLock, hwf.count]
  · have hmem : blanketAddress ∈ d.locks := (mem_locks_iff hwf.no_clear _).mpr hb
    simp only [DesiredState.applyLock, hid, and_false, if_false, true_and, if_pos hmem]
    exact no_clear_writeLockRow _ _ _ _ _ _ (no_clear_burstButtonBlanket hwf.no_clear hwf.count _)
  · intro a
    rw [hrow]
    split
    next ha =>
      subst ha
      exact hc _ (hshape _)
    next => exact hshape a
  · intro hheld
    refine absurd ?_ hheld
    rw [hrow, if_neg (fun h => hid (Prod.mk.inj h).2.symm), hostRow_burstButtonBlanket hwf hn hb,
      if_pos rfl]

theorem RowsWf.applyLock_row (hwf : RowsWf n d)
    (hblanket : ¬(c.1.1 = lockClsBtn ∧ c.1.2.1 = lockIdAll))
    (hb : c.1.1 = lockClsBtn → hostRow d blanketAddress = Slots.default) (hc : Shapely c) :
    RowsWf n (d.applyLock c.1 c.2).1 := by
  have hrow := hostRow_applyLock_row hwf.no_clear hblanket hb c.2
  refine { count := ?_, no_clear := ?_, shape := ?_, blanket_alone := ?_ }
  · rw [buttonCount_applyLock, hwf.count]
  · have hmem : ¬(c.1.1 = lockClsBtn ∧ blanketAddress ∈ d.locks) := fun h =>
      (mem_locks_iff hwf.no_clear _).mp h.2 (hb h.1)
    unfold DesiredState.applyLock
    simp only [if_neg hblanket, if_neg hmem]
    exact no_clear_writeLockRow _ _ _ _ _ _ hwf.no_clear
  · intro a
    rw [hrow]
    split
    next ha =>
      subst ha
      exact hc _ (hwf.shape _)
    next => exact hwf.shape a
  · intro hheld id hid
    have hne : blanketAddress ≠ (c.1.1, c.1.2.1) := fun h =>
      hblanket ⟨(Prod.mk.inj h).1.symm, (Prod.mk.inj h).2.symm⟩
    rw [hrow, if_neg hne] at hheld
    have hcls : c.1.1 ≠ lockClsBtn := fun h => hheld (hb h)
    rw [hrow, if_neg (fun h => hcls (Prod.mk.inj h).1.symm)]
    exact hwf.blanket_alone hheld id hid

theorem RowsWf.applyLock (hwf : RowsWf n d) (hn : n ≤ 16) (hc : Shapely c) :
    RowsWf n (d.applyLock c.1 c.2).1 := by
  obtain ⟨⟨class_, id, dir⟩, scale⟩ := c
  by_cases hblanket : class_ = lockClsBtn ∧ id = lockIdAll
  · obtain ⟨rfl, rfl⟩ := hblanket
    exact hwf.applyLock_blanket hc
  · by_cases hb : class_ = lockClsBtn → hostRow d blanketAddress = Slots.default
    · exact hwf.applyLock_row hblanket hb hc
    · obtain ⟨rfl, hheld⟩ := Classical.not_imp.mp hb
      exact hwf.applyLock_burst hn (fun h => hblanket ⟨rfl, h⟩) hheld hc

/-- A row a command leaves is one the commands may name. -/
theorem HostWf.addressable_applyLock (hwf : HostWf n d) (hn : n ≤ 16) (hc : Accepted n c)
    (a : Address) (ha : hostRow (d.applyLock c.1 c.2).1 a ≠ Slots.default) : Addressable n a := by
  obtain ⟨⟨class_, id, dir⟩, scale⟩ := c
  by_cases hblanket : class_ = lockClsBtn ∧ id = lockIdAll
  · obtain ⟨rfl, rfl⟩ := hblanket
    rw [hostRow_applyLock_blanket] at ha
    split at ha
    next hab => exact .inl hab
    next => split at ha
            · exact absurd rfl ha
            · exact hwf.addressable a ha
  · by_cases hb : class_ = lockClsBtn → hostRow d blanketAddress = Slots.default
    · rw [hostRow_applyLock_row hwf.no_clear hblanket hb] at ha
      split at ha
      next hab => exact hab ▸ hc.addressable
      next => exact hwf.addressable a ha
    · obtain ⟨rfl, hheld⟩ := Classical.not_imp.mp hb
      rw [hostRow_applyLock_burst hwf.rows (fun h => hblanket ⟨rfl, h⟩) hheld] at ha
      split at ha
      next hab => exact hab ▸ hc.addressable
      next =>
        rw [hostRow_burstButtonBlanket hwf.rows hn hheld] at ha
        split at ha
        · exact absurd rfl ha
        · split at ha
          next hm =>
            obtain ⟨b, hbn, rfl⟩ := List.mem_map.mp hm
            have hbn := List.mem_range.mp hbn
            exact .inr ⟨.button ⟨b, Nat.lt_of_lt_of_le hbn hn⟩, hbn, rfl⟩
          next => exact hwf.addressable a ha

theorem HostWf.applyLock (hwf : HostWf n d) (hn : n ≤ 16) (hc : Accepted n c) :
    HostWf n (d.applyLock c.1 c.2).1 := by
  have hrows := hwf.rows.applyLock hn fun _ => hc.shape
  exact ⟨hrows.count, hrows.no_clear, hrows.shape, hwf.addressable_applyLock hn hc,
    hrows.blanket_alone⟩

end Medius.Locks
