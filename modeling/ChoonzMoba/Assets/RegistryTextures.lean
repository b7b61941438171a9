import ChoonzMoba.Assets.RegistryRun

namespace ChoonzMoba

structure AssetWorld.OwnsTextures (w : AssetWorld) : Prop where
  created : ∀ texture ∈ w.created, handleIsNull texture = false ∧
    ((∃! slot, (w.registry.slots slot).holds texture = true) ∧ w.destructions texture = 0 ∨
      (∀ slot, (w.registry.slots slot).holds texture = false) ∧ w.destructions texture = 1)
  held : ∀ texture slot, handleIsNull texture = false →
    (w.registry.slots slot).holds texture = true →
      texture ∈ w.created ∧ w.destructions texture = 0
  destroyed : ∀ d ∈ w.destroyed, d.1 ∈ w.created ∧ w.destructions d.1 = 1

section

variable {w t start : AssetWorld} {texture : Handle} {slot : Nat}

theorem AssetRegistry.Inv.holds_lt {r : AssetRegistry} (inv : r.Inv)
    (h : (r.slots slot).holds texture = true) : slot < r.capacity := by
  have hlive := (Bool.and_eq_true_iff.mp (Bool.and_eq_true_iff.mp h).1).1
  exact Nat.lt_of_lt_of_le (inv.live_lt hlive) inv.fresh_le

theorem AssetWorld.Inv.holders_pos (inv : w.Inv) :
    0 < w.holders texture ↔ ∃ slot, (w.registry.slots slot).holds texture = true := by
  rw [AssetWorld.holders, List.countP_pos_iff]
  constructor
  · rintro ⟨slot, -, hholds⟩
    exact ⟨slot, hholds⟩
  · rintro ⟨slot, hholds⟩
    exact ⟨slot, List.mem_range.mpr (inv.registry.holds_lt hholds), hholds⟩

theorem AssetWorld.Inv.holders_one (inv : w.Inv) (h : w.holders texture = 1) :
    ∃! slot, (w.registry.slots slot).holds texture = true := by
  rw [AssetWorld.holders, List.countP_eq_length_filter] at h
  obtain ⟨slot, hslot⟩ := List.length_eq_one_iff.mp h
  have hfirst := List.mem_singleton_self slot
  rw [← hslot] at hfirst
  refine ⟨slot, (List.mem_filter.mp hfirst).2, fun i hi => ?_⟩
  have hother : i ∈ (List.range w.registry.capacity).filter
      fun i => (w.registry.slots i).holds texture :=
    List.mem_filter.mpr ⟨List.mem_range.mpr (inv.registry.holds_lt hi), hi⟩
  rw [hslot] at hother
  exact List.mem_singleton.mp hother

structure AssetWorld.LogsTextures (w : AssetWorld) : Prop where
  created : ∀ texture ∈ w.created, handleIsNull texture = false
  destroyed : ∀ d ∈ w.destroyed, handleIsNull d.1 = false

theorem Retires.logs {p : Nat → Bool} (h : Retires w p t) (hw : w.LogsTextures) :
    t.LogsTextures where
  created texture htexture := hw.created texture (h.created ▸ htexture)
  destroyed d hd := (h.destroyed d hd).elim (hw.destroyed d) id

theorem Acquired.logs {path : List UInt8} {type : AssetType} {lifetime : Nat}
    {Offered : AssetContent → Prop} {h : AssetHandle}
    (hu : Acquired w path type lifetime Offered h t) (hw : w.LogsTextures) : t.LogsTextures := by
  cases hu with
  | shared _ =>
    rw [AssetWorld.share]
    split
    · exact ⟨hw.created, hw.destroyed⟩
    · exact hw
  | @issued _ _ _ content _ _ _ _ _ =>
    refine ⟨fun texture htexture => ?_, hw.destroyed⟩
    change texture ∈ (if handleIsNull content.gpuHandle = true then w.created
      else content.gpuHandle :: w.created) at htexture
    split at htexture
    · exact hw.created texture htexture
    · next hnull =>
      rcases List.mem_cons.mp htexture with rfl | hold
      · exact Bool.eq_false_of_not_eq_true hnull
      · exact hw.created texture hold

theorem Transition.logs {op : RegistryOp} {answer : RegistryAnswer}
    (h : Transition w op answer t) (hw : w.LogsTextures) : t.LogsTextures := by
  cases h with
  | request hanswered =>
    cases hanswered with
    | refused _ => exact ⟨hw.created, hw.destroyed⟩
    | acquired _ hu _ => exact ⟨(hu.logs hw).created, (hu.logs hw).destroyed⟩
  | release hreleased =>
    cases hreleased with
    | refused _ => exact hw
    | dropped _ _ _ => exact ⟨hw.created, hw.destroyed⟩
    | retired _ _ _ hretires => exact hretires.logs hw
  | unload _ hretires _ => exact ⟨(hretires.logs hw).created, (hretires.logs hw).destroyed⟩
  | shutdown _ hretires _ _ => exact ⟨(hretires.logs hw).created, (hretires.logs hw).destroyed⟩
  | closed _ _ => exact hw

theorem trace_logs (hstart : RegistryInitialized start) {past : List RegistryEvent}
    (htrace : (registrySystem start).Trace past w) : w.LogsTextures := by
  induction htrace with
  | start h =>
    subst h
    obtain ⟨_, _, _, _, _, _, _, -, hcreated, hdestroyed⟩ := hstart
    exact ⟨by simp [hcreated], by simp [hdestroyed]⟩
  | step hpast hnext ih =>
    obtain ⟨rfl, rfl, hstep⟩ := hnext
    exact (registryStep_transition (trace_inv hstart hpast) hstep).logs ih

theorem AssetWorld.Inv.ownsTextures (inv : w.Inv) (hlogs : w.LogsTextures)
    (hfresh : w.created.Nodup) : w.OwnsTextures := by
  have hle : ∀ texture, handleIsNull texture = false →
      w.destructions texture + w.holders texture ≤ 1 := by
    intro texture hnull
    rw [← inv.textures texture hnull]
    exact List.nodup_iff_count_le_one.mp hfresh texture
  have hmem : ∀ texture, handleIsNull texture = false →
      0 < w.destructions texture + w.holders texture → texture ∈ w.created := by
    intro texture hnull hpos
    rw [← inv.textures texture hnull] at hpos
    exact List.count_pos_iff.mp hpos
  refine ⟨fun texture htexture => ?_, fun texture slot hnull hholds => ?_, fun d hd => ?_⟩
  · have hnull := hlogs.created texture htexture
    have hone := List.count_eq_one_of_mem hfresh htexture
    rw [inv.textures texture hnull] at hone
    refine ⟨hnull, ?_⟩
    rcases Nat.eq_zero_or_pos (w.holders texture) with hnone | hsome
    · refine Or.inr ⟨fun slot => Bool.eq_false_of_not_eq_true fun hholds => ?_, by omega⟩
      have hpos := inv.holders_pos.mpr ⟨slot, hholds⟩
      omega
    · exact Or.inl ⟨inv.holders_one (by omega), by omega⟩
  · have hpos := inv.holders_pos.mpr ⟨slot, hholds⟩
    have hbound := hle texture hnull
    exact ⟨hmem texture hnull (by omega), by omega⟩
  · have hnull := hlogs.destroyed d hd
    have hpos : 0 < w.destructions d.1 := List.count_pos_iff.mpr (List.mem_map_of_mem hd)
    have hbound := hle d.1 hnull
    exact ⟨hmem d.1 hnull (by omega), by omega⟩

theorem assetRegistry_owns_textures (hstart : RegistryInitialized start)
    (past : List RegistryEvent) (htrace : (registrySystem start).Trace past w)
    (hfresh : w.created.Nodup) :
    w.OwnsTextures ∧
      ((∃ e ∈ past, ∃ frames, e.op = .shutdown frames) →
        ∀ texture ∈ w.created, w.destructions texture = 1) := by
  have hlogs := trace_logs hstart htrace
  have howns := (trace_inv hstart htrace).ownsTextures hlogs hfresh
  refine ⟨howns, ?_⟩
  rintro ⟨e, he, frames, hop⟩ texture htexture
  obtain ⟨hinit, hdead⟩ := trace_closed hstart htrace
  have hclosed : w.registry.initialized = false := by
    rw [hinit, List.all_eq_false]
    refine ⟨e, he, ?_⟩
    rw [hop]
    exact Bool.false_ne_true
  rcases (howns.created texture htexture).2 with ⟨⟨slot, hholds, -⟩, -⟩ | ⟨-, hdestroyed⟩
  · rw [AssetSlot.holds, hdead hclosed slot] at hholds
    cases hholds
  · exact hdestroyed

theorem assetRegistry_owns_textures_shutdown :
    ∃ past w, (registrySystem exampleWorld).Trace past w ∧ w.created = [5] ∧ w.OwnsTextures ∧
      ∀ texture ∈ w.created, w.destructions texture = 1 := by
  have h : ((registryStep exampleWorld exampleTexture).bind fun r =>
      (registryStep r.2 (.shutdown 0)).map fun s => s.2.created) = some [5] := by decide +kernel
  obtain ⟨r, hr, hrest⟩ := Option.bind_eq_some_iff.mp h
  obtain ⟨s, hs, hcreated⟩ := Option.map_eq_some_iff.mp hrest
  have htrace : (registrySystem exampleWorld).Trace
      [⟨r.2, .shutdown 0, s.1, s.2⟩, ⟨exampleWorld, exampleTexture, r.1, r.2⟩] s.2 :=
    .step (.step (.start rfl) ⟨rfl, rfl, hr⟩) ⟨rfl, rfl, hs⟩
  have hfresh : s.2.created.Nodup := by
    rw [hcreated]
    decide
  obtain ⟨howns, hshutdown⟩ :=
    assetRegistry_owns_textures exampleWorld_initialized _ htrace hfresh
  exact ⟨_, s.2, htrace, hcreated, howns, hshutdown ⟨_, List.mem_cons_self, 0, rfl⟩⟩

end

end ChoonzMoba
