import ChoonzMoba.Core.ArenaKeeps
import ChoonzMoba.Library.Comparator
import ChoonzMoba.Library.Runs
import ChoonzMoba.Render.Batch
import Mathlib.Data.Prod.Lex

namespace ChoonzMoba

abbrev BatchKey := UInt32 × MaterialHandle × MeshHandle

def SortItem.key (src : SortItem) : BatchKey :=
  (src.pipelineKey, src.item.material, src.item.mesh)

def RenderBatch.key (batch : RenderBatch) : BatchKey :=
  (batch.pipelineKey, batch.material, batch.mesh)

def BatchKey.rank (key : BatchKey) : ℕ ×ₗ ℕ ×ₗ ℕ :=
  toLex (key.1.toNat, toLex (key.2.1.h.toNat, key.2.2.h.toNat))

def SortItem.rank (src : SortItem) : ℕ ×ₗ ℕ ×ₗ ℕ ×ₗ ℕ :=
  toLex (src.pipelineKey.toNat, toLex (src.item.material.h.toNat,
    toLex (src.item.mesh.h.toNat, src.ordinal.toNat)))

theorem BatchKey.rank_injective : Function.Injective BatchKey.rank := by
  rintro ⟨pipelineKey, ⟨material⟩, ⟨mesh⟩⟩ ⟨pipelineKey', ⟨material'⟩, ⟨mesh'⟩⟩ h
  simp only [BatchKey.rank, EmbeddingLike.apply_eq_iff_eq, Prod.mk.injEq, UInt32.toNat_inj] at h
  obtain ⟨rfl, rfl, rfl⟩ := h
  rfl

theorem compareSortItems_ranksBy : Comparator.RanksBy compareSortItems SortItem.rank := by
  constructor
  all_goals
    intro a b
    simp only [SortItem.rank, Prod.Lex.toLex_lt_toLex, compareSortItems, UInt32.lt_iff_toNat_lt,
      ← UInt32.toNat_inj, ne_eq]
    split_ifs <;> omega

theorem SortItem.key_rank_le {a b : SortItem} (h : a.rank < b.rank) : a.key.rank ≤ b.key.rank := by
  simp only [SortItem.rank, Prod.Lex.toLex_lt_toLex] at h
  simp only [BatchKey.rank, SortItem.key, Prod.Lex.toLex_le_toLex]
  omega

variable {User : Type} {resolve : User → DrawItem → UInt32 → Bool × UInt32 × User}

def resolvedKeys (resolve : User → DrawItem → UInt32 → Bool × UInt32 × User) (user : User) :
    List DrawItem → Option (List UInt32)
  | [] => some []
  | item :: items =>
    match resolve user item 0 with
    | (false, _, _) => none
    | (true, key, user) => (resolvedKeys resolve user items).map (key :: ·)

def submission (items : List DrawItem) (keys : List UInt32) (i : Nat) : List SortItem :=
  ((items.zip keys).zipIdx i).map fun ((item, key), position) =>
    ⟨item, key, UInt32.ofNat position⟩

structure DrawOrder (draws sorted : List SortItem) : Prop where
  perm : sorted.Perm draws
  ascending : sorted.Pairwise fun a b => a.rank < b.rank

structure Batched (sorted : List SortItem) (batches : List RenderBatch) : Prop where
  partition : (batches.flatMap fun batch =>
    List.range' batch.instanceBase.toNat batch.instanceCount.toNat) = List.range sorted.length
  nonempty : ∀ batch ∈ batches, 0 < batch.instanceCount
  sameKey : ∀ batch ∈ batches, ∀ i, batch.instanceBase.toNat ≤ i →
    i < batch.instanceBase.toNat + batch.instanceCount.toNat →
    (sorted.map SortItem.key)[i]? = some batch.key
  distinct : (batches.map RenderBatch.key).Nodup

theorem resolveItems_fst (user : User) (i : Nat) (items : List DrawItem) :
    (resolveItems resolve user i items).1 =
      (resolvedKeys resolve user items).map fun keys => submission items keys i := by
  induction items generalizing user i with
  | nil => rfl
  | cons item items ih =>
    rw [resolveItems, resolvedKeys]
    obtain ⟨resolved, key, user'⟩ := resolve user item 0
    cases resolved with
    | false => rfl
    | true =>
      simp only [ih, Option.map_map]
      rfl

theorem resolvedKeys_length {user : User} {items : List DrawItem} {keys : List UInt32}
    (h : resolvedKeys resolve user items = some keys) : keys.length = items.length := by
  induction items generalizing user keys with
  | nil =>
    cases h
    rfl
  | cons item items ih =>
    rw [resolvedKeys] at h
    generalize resolve user item 0 = answer at h
    obtain ⟨resolved, key, user'⟩ := answer
    cases resolved with
    | false => cases h
    | true =>
      obtain ⟨rest, hrest, rfl⟩ := Option.map_eq_some_iff.mp h
      rw [List.length_cons, List.length_cons, ih hrest]

variable {items : List DrawItem} {keys : List UInt32}

theorem submission_length (hkeys : keys.length = items.length) :
    (submission items keys 0).length = items.length := by
  rw [submission, List.length_map, List.length_zipIdx, List.length_zip, hkeys, Nat.min_self]

theorem submission_ordinals (hkeys : keys.length = items.length) :
    (submission items keys 0).map SortItem.ordinal =
      (List.range items.length).map UInt32.ofNat := by
  have hsnd : ((items.zip keys).zipIdx 0).map Prod.snd = List.range items.length := by
    rw [List.zipIdx_map_snd, List.length_zip, hkeys, Nat.min_self, List.range_eq_range']
  rw [submission, List.map_map, ← hsnd, List.map_map]
  rfl

theorem ordinals_nodup {count : Nat} (hcount : count ≤ 2 ^ 32) :
    ((List.range count).map UInt32.ofNat).Nodup := by
  refine List.Nodup.map_on (fun a ha b hb hab => ?_) List.nodup_range
  rw [List.mem_range] at ha hb
  have := congrArg UInt32.toNat hab
  rwa [UInt32.toNat_ofNat_of_lt' (by rw [UInt32.size]; omega),
    UInt32.toNat_ofNat_of_lt' (by rw [UInt32.size]; omega)] at this

theorem SortItem.ordinal_eq {a b : SortItem} (h : a.rank = b.rank) : a.ordinal = b.ordinal := by
  simp only [SortItem.rank, EmbeddingLike.apply_eq_iff_eq, Prod.mk.injEq, UInt32.toNat_inj] at h
  exact h.2.2.2

theorem DrawOrder.unique {draws sorted other : List SortItem} (h : DrawOrder draws sorted)
    (h' : DrawOrder draws other) : other = sorted :=
  Comparator.eq_of_pairwise_lt h'.ascending h.ascending (h'.perm.trans h.perm.symm)

theorem sorts_drawOrder {qsort : (SortItem → SortItem → Int) → List SortItem → List SortItem}
    (hsort : Comparator.Sorts qsort) {draws : List SortItem}
    (hordinals : (draws.map SortItem.ordinal).Nodup) :
    DrawOrder draws (qsort compareSortItems draws) := by
  have hconsistent := compareSortItems_ranksBy.consistent
  have hperm := hsort.perm compareSortItems draws hconsistent
  have hsorted := (hperm.map SortItem.ordinal).symm.nodup hordinals
  refine ⟨hperm, compareSortItems_ranksBy.pairwise_lt (List.Nodup.of_map _ hsorted) ?_
    (hsort.ascending compareSortItems draws hconsistent)⟩
  intro a ha b hb hab
  exact List.inj_on_of_nodup_map hsorted ha hb (SortItem.ordinal_eq hab)

def RenderBatch.run (batch : RenderBatch) : Run BatchKey :=
  ⟨batch.key, batch.instanceBase.toNat, batch.instanceCount.toNat⟩

theorem startsBatch_concat (batches : List RenderBatch) (prior : RenderBatch) (src : SortItem) :
    startsBatch (batches ++ [prior]) src = false ↔ prior.key = src.key := by
  rw [startsBatch, List.getLast?_concat]
  simp only [Bool.or_eq_false_iff, bne_eq_false_iff_eq, RenderBatch.key, SortItem.key,
    Prod.mk.injEq, MaterialHandle.ext_iff, MeshHandle.ext_iff, and_assoc]

theorem appendBatch_run {batches : List RenderBatch} {i : Nat} (src : SortItem) (hi : i < 2 ^ 32)
    (hcounts : ∀ batch ∈ batches, batch.instanceCount.toNat + 1 < 2 ^ 32) :
    ((appendBatch batches i src).map RenderBatch.run).reverse =
      Run.extend (batches.map RenderBatch.run).reverse i src.key := by
  have hbase : (UInt32.ofNat i).toNat = i := UInt32.toNat_ofNat_of_lt' hi
  induction batches using List.reverseRecOn with
  | nil =>
    rw [appendBatch, startsBatch, if_pos (by rfl)]
    simp [RenderBatch.run, Run.extend, RenderBatch.key, SortItem.key, hbase]
  | append_singleton earlier prior _ =>
    have hcount := hcounts prior List.mem_concat_self
    rw [appendBatch]
    by_cases hsame : prior.key = src.key
    · rw [if_neg (by rw [(startsBatch_concat earlier prior src).mpr hsame]; decide),
        List.modifyLast_concat]
      have hsucc : (prior.instanceCount + 1).toNat = prior.instanceCount.toNat + 1 := by
        rw [UInt32.toNat_add, UInt32.toNat_one, Nat.mod_eq_of_lt hcount]
      have hrun : RenderBatch.run { prior with instanceCount := prior.instanceCount + 1 } =
          { prior.run with count := prior.run.count + 1 } :=
        congrArg (Run.mk prior.key prior.instanceBase.toNat) hsucc
      simp only [List.map_append, List.map_cons, List.map_nil, List.reverse_append,
        List.reverse_singleton, List.singleton_append, Run.extend, hrun]
      exact (if_pos hsame).symm
    · have hstarts : startsBatch (earlier ++ [prior]) src = true := by
        rw [← Bool.not_eq_false, startsBatch_concat]
        exact hsame
      rw [if_pos hstarts]
      have hrun : RenderBatch.run ⟨src.pipelineKey, src.item.mesh, src.item.material,
          UInt32.ofNat i, 1⟩ = ⟨src.key, i, 1⟩ :=
        congrArg (Run.mk src.key · 1) hbase
      simp only [List.map_append, List.map_cons, List.map_nil, List.reverse_append,
        List.reverse_singleton, List.singleton_append, Run.extend, hrun]
      exact (if_neg hsame).symm

theorem placeInstances_spec {sorted : List SortItem} (hlength : sorted.length < 2 ^ 32) :
    (sorted.zipIdx.foldl placeInstance ([], [])).1 = sorted.map (fun src => ⟨src.item.model⟩) ∧
      Run.Groups (sorted.map SortItem.key)
        ((sorted.zipIdx.foldl placeInstance ([], [])).2.map RenderBatch.run).reverse := by
  induction sorted using List.reverseRecOn with
  | nil => exact ⟨rfl, Run.Groups.nil⟩
  | append_singleton sorted src ih =>
    rw [List.length_append, List.length_singleton] at hlength
    obtain ⟨hinstances, hgroups⟩ := ih (by omega)
    rw [List.zipIdx_append, List.foldl_append, List.zipIdx_singleton, List.foldl_cons,
      List.foldl_nil, placeInstance, Nat.zero_add]
    generalize sorted.zipIdx.foldl placeInstance ([], []) = arrays at hinstances hgroups ⊢
    refine ⟨by rw [hinstances, List.map_append]; rfl, ?_⟩
    rw [appendBatch_run src (by omega), List.map_append]
    · have := hgroups.extend src.key
      rwa [List.length_map] at this
    · intro batch hbatch
      have := hgroups.contiguous.le (r := batch.run)
        (List.mem_reverse.mpr (List.mem_map_of_mem hbatch))
      rw [List.length_map] at this
      change batch.instanceBase.toNat + batch.instanceCount.toNat ≤ sorted.length at this
      omega

theorem Batched.of_groups {draws sorted : List SortItem} {batches : List RenderBatch}
    (horder : DrawOrder draws sorted)
    (h : Run.Groups (sorted.map SortItem.key) (batches.map RenderBatch.run).reverse) :
    Batched sorted batches where
  partition := by
    have := h.contiguous.ranges
    rwa [List.reverse_reverse, List.flatMap_map, List.length_map] at this
  nonempty batch hbatch := by
    have := h.contiguous.pos (List.mem_reverse.mpr (List.mem_map_of_mem hbatch))
    exact UInt32.lt_iff_toNat_lt.mpr this
  sameKey batch hbatch i hbase hi :=
    h.keyAt batch.run (List.mem_reverse.mpr (List.mem_map_of_mem hbatch)) i hbase hi
  distinct := by
    have hsorted : (sorted.map SortItem.key).Pairwise fun a b => BatchKey.rank a ≤ BatchKey.rank b :=
      List.pairwise_map.mpr (horder.ascending.imp SortItem.key_rank_le)
    have := h.nodup BatchKey.rank_injective hsorted
    rwa [List.map_reverse, List.nodup_reverse, List.map_map] at this

theorem pushBatchArrays_isSome {arena : Arena} (wf : arena.Wf) (hcommit : arena.CommitSucceeds)
    {count : Nat} (hroom : arena.offset + 180 * count + 33 ≤ arena.reserved) :
    (pushBatchArrays arena count).isSome := by
  simp only [pushBatchArrays, sortItemSize, sortItemAlign, renderInstanceDataSize,
    renderInstanceDataAlign, renderBatchSize, renderBatchAlign]
  obtain ⟨a, sorted, hsorted, hwf, hcommit, hbacking, hoffset⟩ :=
    arenaPush_ok wf hcommit (96 * count) (k := 4) (by omega)
  have hreserved := hbacking.reserved
  obtain ⟨b, instances, hinstances, hwf', hcommit', hbacking', hoffset'⟩ :=
    arenaPush_ok hwf hcommit (64 * count) (k := 4) (by omega)
  have hreserved' := hbacking'.reserved
  obtain ⟨c, batches, hbatches, -⟩ :=
    arenaPush_ok hwf' hcommit' (20 * count) (k := 2) (by omega)
  have hsixteen : 2 ^ 4 = 16 := rfl
  have hfour : 2 ^ 2 = 4 := rfl
  rw [hsixteen] at hsorted hinstances
  rw [hfour] at hbatches
  simp only [hsorted, hinstances, hbatches, Option.bind_eq_bind, Option.bind_some]
  rfl

-- the model keeps the arrays apart because the blocks are
theorem pushBatchArrays_disjoint {arena pushed : Arena} {addresses : BatchArrays} {count : Nat}
    (h : pushBatchArrays arena count = some (pushed, addresses)) :
    arena.base + arena.offset ≤ addresses.sorted ∧
      addresses.sorted + sortItemSize * count ≤ addresses.instances ∧
      addresses.instances + renderInstanceDataSize * count ≤ addresses.batches ∧
      addresses.batches + renderBatchSize * count = pushed.base + pushed.offset := by
  obtain ⟨⟨a, sorted⟩, hsorted, h⟩ := Option.bind_eq_some_iff.mp h
  obtain ⟨⟨b, instances⟩, hinstances, h⟩ := Option.bind_eq_some_iff.mp h
  obtain ⟨⟨c, batches⟩, hbatches, h⟩ := Option.bind_eq_some_iff.mp h
  cases h
  have hsorted := Arena.pushed hsorted
  have hinstances := Arena.pushed hinstances
  have hbatches := Arena.pushed hbatches
  have hstop := hsorted.stop
  have hstop' := hinstances.stop
  rw [← hsorted.keeps.backing.base] at hstop
  rw [← hinstances.keeps.backing.base] at hstop'
  refine ⟨hsorted.start, hstop.trans_le hinstances.start, hstop'.trans_le hbatches.start, ?_⟩
  rw [hbatches.keeps.backing.base]
  exact hbatches.stop

def batchOutput (count : Nat) (addresses : BatchArrays) (sorted : List SortItem) :
    RenderBatchOutput where
  instancesAddress := addresses.instances
  instances := (sorted.zipIdx.foldl placeInstance ([], [])).1
  batchesAddress := addresses.batches
  batches := (sorted.zipIdx.foldl placeInstance ([], [])).2
  instanceCount := UInt32.ofNat count
  batchCount := UInt32.ofNat (sorted.zipIdx.foldl placeInstance ([], [])).2.length

structure BatchedDraws (draws sorted : List SortItem) (result : RenderBatchOutput) : Prop where
  order : ∀ other, DrawOrder draws other ↔ other = sorted
  instances : result.instances = sorted.map fun src => ⟨src.item.model⟩
  instanceCount : result.instanceCount.toNat = draws.length
  batches : Batched sorted result.batches
  batchCount : result.batchCount.toNat = result.batches.length

theorem DrawOrder.batchedDraws {draws sorted : List SortItem} (h : DrawOrder draws sorted)
    (hlength : draws.length < 2 ^ 32) (addresses : BatchArrays) :
    BatchedDraws draws sorted (batchOutput draws.length addresses sorted) := by
  have hsorted : sorted.length < 2 ^ 32 := h.perm.length_eq ▸ hlength
  obtain ⟨hinstances, hgroups⟩ := placeInstances_spec hsorted
  have hcount := hgroups.contiguous.length_le
  rw [List.length_reverse, List.length_map, List.length_map] at hcount
  exact ⟨fun other => ⟨h.unique, fun hother => hother ▸ h⟩, hinstances,
    UInt32.toNat_ofNat_of_lt' hlength, .of_groups h hgroups,
    UInt32.toNat_ofNat_of_lt' (hcount.trans_lt hsorted)⟩

theorem renderBuildBatches_pushed
    {qsort : (SortItem → SortItem → Int) → List SortItem → List SortItem} {capacity : UInt32}
    {arena pushed : Arena} {addresses : BatchArrays} (user : User) (out : RenderBatchOutput)
    (hcount : items.length ≤ capacity.toNat) (hne : items ≠ [])
    (hpush : pushBatchArrays arena items.length = some (pushed, addresses)) :
    renderBuildBatches qsort resolve items capacity arena user out =
      some (match resolveItems resolve user 0 items with
        | (none, user) => (false, .zero, tempEnd pushed arena.offset, user)
        | (some sorted, user) =>
          (true, batchOutput items.length addresses (qsort compareSortItems sorted), pushed, user))
    := by
  rw [renderBuildBatches, if_neg (Nat.not_lt_of_le hcount),
    if_neg (fun h => hne (List.length_eq_zero_iff.mp h)), hpush, Option.map_some]
  rfl

theorem renderBuildBatches_groups (resolve : User → DrawItem → UInt32 → Bool × UInt32 × User)
    (items : List DrawItem) (capacity : UInt32) (arena : Arena) (user : User)
    (out : RenderBatchOutput) (hcount : items.length ≤ capacity.toNat)
    (hroom : items ≠ [] → (pushBatchArrays arena items.length).isSome) :
    (∀ keys, resolvedKeys resolve user items = some keys →
      ∃ sorted result arena' user', BatchedDraws (submission items keys 0) sorted result ∧
        (items ≠ [] →
          arena.base + arena.offset + sortItemSize * items.length ≤ result.instancesAddress ∧
          result.instancesAddress + renderInstanceDataSize * items.length ≤ result.batchesAddress ∧
          result.batchesAddress + renderBatchSize * items.length = arena'.base + arena'.offset) ∧
        ∀ qsort, Comparator.Sorts qsort →
          renderBuildBatches qsort resolve items capacity arena user out =
            some (true, result, arena', user')) ∧
    (resolvedKeys resolve user items = none →
      ∃ arena' user', arena'.offset = arena.offset ∧
        ∀ qsort, renderBuildBatches qsort resolve items capacity arena user out =
          some (false, .zero, arena', user')) := by
  have hlt : items.length < 2 ^ 32 := Nat.lt_of_le_of_lt hcount capacity.toNat_lt
  rcases eq_or_ne items [] with rfl | hne
  · have hempty : ∀ qsort, renderBuildBatches qsort resolve [] capacity arena user out =
        some (true, .zero, arena, user) := fun qsort => rfl
    refine ⟨fun keys hkeys => ⟨[], .zero, arena, user, ?_, fun hne => absurd rfl hne,
      fun qsort _ => hempty qsort⟩, nofun⟩
    have horder : DrawOrder (submission [] keys 0) [] := ⟨.refl _, .nil⟩
    refine ⟨fun other => ⟨horder.unique, fun hother => hother ▸ horder⟩, rfl, rfl,
      ⟨rfl, nofun, nofun, .nil⟩, rfl⟩
  · obtain ⟨⟨pushed, addresses⟩, hpush⟩ := Option.isSome_iff_exists.mp (hroom hne)
    have hresolve : (resolveItems resolve user 0 items).1 =
        (resolvedKeys resolve user items).map fun keys => submission items keys 0 :=
      resolveItems_fst user 0 items
    have hbuild : ∀ qsort, renderBuildBatches qsort resolve items capacity arena user out = _ :=
      fun qsort => renderBuildBatches_pushed user out hcount hne hpush
    generalize resolveItems resolve user 0 items = resolved at hresolve hbuild
    obtain ⟨answer, user'⟩ := resolved
    constructor
    · intro keys hkeys
      rw [hkeys] at hresolve
      obtain rfl : answer = some (submission items keys 0) := hresolve
      have hlength := resolvedKeys_length hkeys
      have hordinals : ((submission items keys 0).map SortItem.ordinal).Nodup := by
        rw [submission_ordinals hlength]
        exact ordinals_nodup hlt.le
      have horder := sorts_drawOrder Comparator.mergeSort_sorts hordinals
      have hdraws := submission_length hlength
      obtain ⟨hstart, hsorted, hinstances, hbatches⟩ := pushBatchArrays_disjoint hpush
      refine ⟨_, _, pushed, user', horder.batchedDraws (hdraws ▸ hlt) addresses,
        fun _ => ⟨(Nat.add_le_add_right hstart _).trans hsorted, hinstances, hbatches⟩,
        fun qsort hsort => ?_⟩
      rw [hbuild qsort, ← horder.unique (sorts_drawOrder hsort hordinals), hdraws]
    · intro hkeys
      rw [hkeys] at hresolve
      obtain rfl : answer = none := hresolve
      exact ⟨tempEnd pushed arena.offset, user', rfl, hbuild⟩

theorem renderBuildBatches_groups_pair :
    let blank : Mat4 := ⟨.replicate 4 (.replicate 4 0)⟩
    let resolve : Nat → DrawItem → UInt32 → Bool × UInt32 × Nat := fun calls item _ =>
      (decide (calls < 2), item.material.h &&& 1, calls + 1)
    let odd : DrawItem := ⟨blank, ⟨5⟩, ⟨7⟩⟩
    let even : DrawItem := ⟨blank, ⟨2⟩, ⟨4⟩⟩
    let arena : Arena := ⟨4096, 0, 65536, 65536, 0, none, 0, by decide⟩
    (∃ sorted result arena' user', BatchedDraws (submission [odd, even] [1, 0] 0) sorted result ∧
      result.batchesAddress + renderBatchSize * 2 = arena'.base + arena'.offset ∧
      ∀ qsort, Comparator.Sorts qsort →
        renderBuildBatches qsort resolve [odd, even] 4 arena 0 .zero =
          some (true, result, arena', user')) ∧
    (∃ arena' user', arena'.offset = arena.offset ∧
      ∀ qsort, renderBuildBatches qsort resolve [odd, even, odd] 4 arena 0 .zero =
        some (false, .zero, arena', user')) := by
  intro blank resolve odd even arena
  have hwf : arena.Wf := ⟨by decide, by decide, by decide, by decide⟩
  have hcommit : arena.CommitSucceeds := .inl rfl
  obtain ⟨sorted, result, arena', user', hdraws, hplaced, hbuild⟩ :=
    (renderBuildBatches_groups resolve [odd, even] 4 arena 0 .zero (by decide)
      fun _ => pushBatchArrays_isSome hwf hcommit (by decide)).1 [1, 0] (by decide)
  exact ⟨⟨sorted, result, arena', user', hdraws, (hplaced (List.cons_ne_nil _ _)).2.2, hbuild⟩,
    (renderBuildBatches_groups resolve [odd, even, odd] 4 arena 0 .zero (by decide)
      fun _ => pushBatchArrays_isSome hwf hcommit (by decide)).2 (by decide)⟩

end ChoonzMoba
