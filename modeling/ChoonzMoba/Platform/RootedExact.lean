import ChoonzMoba.Platform.RootedConfined

namespace ChoonzMoba

variable {Node : Type}

def joined (full : WidePath) : List WidePath → WidePath
  | [] => full
  | name :: names => withSeparator (joined full names) ++ name

structure Plain (fs : FileSystem Node) (n : Node) : Prop where
  directory : fs.directory n = true
  reparse : fs.reparse n = false

structure Reached (job : RootedJob) (s : RootedState Node) (r : Node) (names : List WidePath)
    (nodes : List Node) : Prop where
  root : s.handles s.root = some r
  leads : s.fs.Leads (pathNames s.finalRoot) r
  opens : s.fs.opens job.full = some r
  components : s.components.map s.handles = nodes.map some
  linked : s.fs.Linked r names nodes
  valid : ∀ name ∈ names, NameValid name

structure Traced (job : RootedJob) (s : RootedState Node) (r f : Node) (nodes : List Node) :
    Prop where
  reached : Reached job s r (segments job.relative).reverse (f :: nodes)
  plain : ∀ m ∈ r :: nodes, Plain s.fs m
  reparse : s.fs.reparse f = false

def RootedExact (job : RootedJob) (s : RootedState Node) : Prop :=
  match s.pc with
  | .openRoot => s.rest = job.relative
  | .rootAttributes =>
    s.rest = job.relative ∧ ∃ r, s.handles s.root = some r ∧ s.fs.opens job.full = some r
  | .rootFinalPath => s.rest = job.relative ∧
      ∃ r, s.handles s.root = some r ∧ s.fs.opens job.full = some r ∧ Plain s.fs r
  | .openComponent => ∃ r names nodes, Reached job s r names nodes ∧
      (∀ m ∈ r :: nodes, Plain s.fs m) ∧ s.current = withSeparator (joined job.full names) ∧
      segments job.relative = names.reverse ++ segments s.rest
  | .attributes last => ∃ r name names n nodes, Reached job s r (name :: names) (n :: nodes) ∧
      (∀ m ∈ r :: nodes, Plain s.fs m) ∧ s.current = joined job.full (name :: names) ∧
      segments job.relative =
        (name :: names).reverse ++ if last then [] else segments s.rest.tail
  | .finalPath | .information => ∃ r f nodes, Traced job s r f nodes
  | .fileSize | .alloc _ | .read _ => ∃ r f nodes, Traced job s r f nodes ∧ s.fs.links f = 1
  | .close _ | .closeRoot _ | .finished _ => True

variable {job : RootedJob} {s t : RootedState Node} {fs : FileSystem Node} {n m r f : Node}
  {names : List WidePath} {nodes : List Node}

theorem headD_mem (r : Node) (nodes : List Node) : nodes.headD r ∈ r :: nodes := by
  cases nodes with
  | nil => exact List.mem_cons_self
  | cons m nodes => exact List.mem_cons_of_mem _ List.mem_cons_self

theorem mem_cons_skip (hm : m ∈ r :: nodes) : m ∈ r :: n :: nodes :=
  ((List.Sublist.refl nodes).cons n).cons_cons r |>.subset hm

theorem opens_linked {full : WidePath} (hroot : fs.opens full = some r)
    (hlinked : fs.Linked r names nodes) (hvalid : ∀ name ∈ names, NameValid name)
    (hordinary : ∀ name ∈ names, fs.ordinary name) (hplain : ∀ m ∈ r :: nodes, Plain fs m) :
    fs.opens (joined full names) = some (nodes.headD r) := by
  induction names generalizing nodes with
  | nil =>
    cases nodes with
    | nil => exact hroot
    | cons n nodes => exact hlinked.elim
  | cons name names ih =>
    cases nodes with
    | nil => exact hlinked.elim
    | cons n nodes =>
      have hsub : ∀ m ∈ r :: nodes, Plain fs m := fun m hm => hplain m (mem_cons_skip hm)
      have hparent := ih hlinked.2 (fun x hx => hvalid x (List.mem_cons_of_mem _ hx))
        (fun x hx => hordinary x (List.mem_cons_of_mem _ hx)) hsub
      obtain ⟨hdirectory, hreparse⟩ := hsub _ (headD_mem r nodes)
      rw [joined, fs.opens_entry _ _ _ hparent hdirectory hreparse (hvalid _ List.mem_cons_self)
        (hordinary _ List.mem_cons_self)]
      exact hlinked.1

theorem Reached.holds (h : Reached job s r names nodes) (hm : m ∈ r :: nodes) : s.Holds m := by
  rcases List.mem_cons.mp hm with rfl | hm
  · exact ⟨_, h.root⟩
  · have hsome : some m ∈ s.components.map s.handles := h.components ▸ List.mem_map_of_mem hm
    obtain ⟨handle, -, hnode⟩ := List.mem_map.mp hsome
    exact ⟨handle, hnode⟩

theorem Reached.top (h : Reached job s r names (n :: nodes)) : s.top n := by
  obtain ⟨handle, components, hcomponents, hnode, -⟩ := List.map_eq_cons_iff.mp h.components
  exact ⟨handle, components, hcomponents, hnode⟩

theorem Reached.interferes (h : Reached job s r names nodes) (hi : Interferes s fs)
    (ha : LeavesAlone job s fs) : Reached job { s with fs := fs } r names nodes := by
  have hr : s.Holds r := h.holds List.mem_cons_self
  refine ⟨h.root, hi.pins.leads r hr _ h.leads, ha.opens.trans h.opens, h.components, ?_, h.valid⟩
  exact hi.pins.linked h.leads hr (fun m hm => h.holds (List.mem_cons_of_mem _ hm)) h.linked

theorem Plain.interferes (h : Plain s.fs m) (hi : Interferes s fs) (ha : LeavesAlone job s fs)
    (hm : s.Holds m) : Plain fs m :=
  ⟨(hi.directory m hm).trans h.directory, (ha.reparse m hm).trans h.reparse⟩

theorem Traced.interferes (h : Traced job s r f nodes) (hi : Interferes s fs)
    (ha : LeavesAlone job s fs) : Traced job { s with fs := fs } r f nodes := by
  refine ⟨h.reached.interferes hi ha, fun m hm => ?_, ?_⟩
  · exact (h.plain m hm).interferes hi ha (h.reached.holds (mem_cons_skip hm))
  · exact (ha.reparse f (top_holds h.reached.top)).trans h.reparse

theorem RootedExact.interferes (h : RootedExact job s) (hi : Interferes s fs)
    (ha : LeavesAlone job s fs) : RootedExact job { s with fs := fs } := by
  obtain ⟨pc, fs₀, handles, root, finalRoot, current, rest, components, buffer, block, out,
    misused⟩ := s
  cases pc with
  | openRoot => exact h
  | rootAttributes =>
    obtain ⟨hrest, r, hroot, hopens⟩ := h
    exact ⟨hrest, r, hroot, ha.opens.trans hopens⟩
  | rootFinalPath =>
    obtain ⟨hrest, r, hroot, hopens, hplain⟩ := h
    exact ⟨hrest, r, hroot, ha.opens.trans hopens, hplain.interferes hi ha ⟨_, hroot⟩⟩
  | openComponent =>
    obtain ⟨r, names, nodes, hreached, hplain, hcurrent, hsegments⟩ := h
    exact ⟨r, names, nodes, hreached.interferes hi ha,
      fun m hm => (hplain m hm).interferes hi ha (hreached.holds hm), hcurrent, hsegments⟩
  | «attributes» last =>
    obtain ⟨r, name, names, n, nodes, hreached, hplain, hcurrent, hsegments⟩ := h
    exact ⟨r, name, names, n, nodes, hreached.interferes hi ha,
      fun m hm => (hplain m hm).interferes hi ha (hreached.holds (mem_cons_skip hm)), hcurrent,
      hsegments⟩
  | finalPath | information =>
    obtain ⟨r, f, nodes, htraced⟩ := h
    exact ⟨r, f, nodes, htraced.interferes hi ha⟩
  | fileSize | alloc | read =>
    obtain ⟨r, f, nodes, htraced, hlinks⟩ := h
    exact ⟨r, f, nodes, htraced.interferes hi ha,
      (ha.links f (top_holds htraced.reached.top)).trans hlinks⟩
  | close | closeRoot | finished => trivial

theorem rootedExact_at {pc : RootedPc} (hpc : s.pc = pc) :
    RootedExact job { s with pc := pc } ↔ RootedExact job s := by
  rw [← hpc]

theorem Reached.move {pc : RootedPc} {current rest : WidePath} {buffer : List UInt8}
    {block : Option Nat} (h : Reached job s r names nodes) : Reached job { s with
      pc := pc, current := current, rest := rest, buffer := buffer, block := block } r names nodes :=
  ⟨h.root, h.leads, h.opens, h.components, h.linked, h.valid⟩

theorem Traced.move {pc : RootedPc} {buffer : List UInt8} {block : Option Nat}
    (h : Traced job s r f nodes) :
    Traced job { s with pc := pc, buffer := buffer, block := block } r f nodes :=
  ⟨h.reached.move, h.plain, h.reparse⟩

theorem Reached.push {segment rest : WidePath} {handle : Nat} {pc : RootedPc}
    (h : Reached job s r names nodes) (hplain : ∀ m ∈ r :: nodes, Plain s.fs m)
    (hcurrent : s.current = withSeparator (joined job.full names))
    (hordinary : ∀ name ∈ segment :: names, s.fs.ordinary name)
    (hopens : SegmentOpens s segment rest handle n) : Reached job { s with
      pc := pc
      current := s.current ++ segment
      rest := rest
      handles := Function.update s.handles handle (some n)
      components := handle :: s.components } r (segment :: names) (n :: nodes) := by
  have hfresh := hopens.fresh
  have hne : ∀ other, (s.handles other).isSome = true → other ≠ handle := by
    intro other hsome heq
    rw [heq, hfresh] at hsome
    cases hsome
  have hparent := opens_linked h.opens h.linked h.valid
    (fun name hname => hordinary name (List.mem_cons_of_mem _ hname)) hplain
  obtain ⟨hdirectory, hreparse⟩ := hplain _ (headD_mem r nodes)
  refine ⟨(Function.update_of_ne (hne _ (by rw [h.root]; rfl)) _ _).trans h.root, h.leads, h.opens,
    ?_, ⟨?_, h.linked⟩, fun name hname => ?_⟩
  · show (handle :: s.components).map (Function.update s.handles handle (some n)) = _
    rw [List.map_cons, List.map_cons, Function.update_self, ← h.components]
    refine congrArg _ (List.map_congr_left fun other hother => Function.update_of_ne ?_ _ _)
    obtain ⟨m, -, hm⟩ := List.mem_map.mp (h.components ▸ List.mem_map_of_mem (f := s.handles) hother)
    exact hne other (by rw [← hm]; rfl)
  · have hentry := s.fs.opens_entry _ _ segment hparent hdirectory hreparse hopens.valid
      (hordinary _ List.mem_cons_self)
    rw [← hentry, ← hcurrent]
    exact hopens.opens
  · rcases List.mem_cons.mp hname with rfl | hname
    · exact hopens.valid
    · exact h.valid name hname

theorem segments_rest {segment rest rest' : WidePath}
    (h : rootedSegment rest = some (segment, rest')) :
    segments rest = segment :: if decide (rest' = []) then [] else segments rest'.tail := by
  by_cases hrest : rest' = []
  · rw [hrest] at h ⊢
    exact segments_last h
  · rw [decide_eq_false hrest]
    exact segments_cons h hrest

theorem RootedStep.exact (h : RootedStep job s t) (owns : RootedOwns s)
    (hordinary : ∀ name ∈ segments job.relative, s.fs.ordinary name) (exact : RootedExact job s) :
    RootedExact job t := by
  cases h with
  | refuse | rootFails | fails | deliver | closed | closeRoot => trivial
  | @openRoot handle n hpc hfresh hopens =>
    exact ⟨(rootedExact_at hpc).mpr exact, n, Function.update_self _ _ _, hopens⟩
  | @rootAttributes n hpc hroot hdirectory hreparse =>
    obtain ⟨hrest, r, hroot', hopens⟩ := (rootedExact_at hpc).mpr exact
    rw [Option.some.inj (hroot'.symm.trans hroot)] at hopens
    exact ⟨hrest, n, hroot, hopens, hdirectory, hreparse⟩
  | @rootFinalPath path n hpc hroot hleads =>
    obtain ⟨hrest, r, hroot', hopens, hplain⟩ := (rootedExact_at hpc).mpr exact
    rw [Option.some.inj (hroot'.symm.trans hroot)] at hopens hplain
    have hnil : s.components = [] := owns.shallow (by rw [hpc]; rfl)
    refine ⟨n, [], [], ⟨hroot, hleads, hopens, ?_, trivial, fun name hname => ?_⟩, fun m hm => ?_,
      rfl, ?_⟩
    · show s.components.map s.handles = []
      rw [hnil]
      rfl
    · exact absurd hname List.not_mem_nil
    · rw [List.mem_singleton.mp hm]
      exact hplain
    · exact congrArg segments hrest.symm
  | @openComponent segment rest handle n hpc hopens =>
    unfold RootedExact at exact
    rw [hpc] at exact
    obtain ⟨r, names, nodes, hreached, hplain, hcurrent, hsegments⟩ := exact
    have hrest := segments_rest hopens.scan
    have hmem : ∀ name ∈ segment :: names, name ∈ segments job.relative := by
      intro name hname
      rw [hsegments, hrest, List.mem_append, List.mem_reverse, List.mem_cons]
      rcases List.mem_cons.mp hname with rfl | hname
      · exact Or.inr (Or.inl rfl)
      · exact Or.inl hname
    refine ⟨r, segment, names, n, nodes, hreached.push hplain hcurrent
      (fun name hname => hordinary name (hmem name hname)) hopens, hplain, ?_, ?_⟩
    · rw [joined, ← hcurrent]
    · rw [hsegments, hrest, List.reverse_cons, List.append_assoc]
      rfl
  | @directory n hpc htop hdirectory hreparse hrest =>
    obtain ⟨r, name, names, m, nodes, hreached, hplain, hcurrent, hsegments⟩ :=
      (rootedExact_at hpc).mpr exact
    cases top_unique hreached.top htop
    refine ⟨r, name :: names, n :: nodes, hreached.move, fun m hm => ?_, ?_, hsegments⟩
    · rcases List.mem_cons.mp hm with rfl | hm
      · exact hplain _ List.mem_cons_self
      · rcases List.mem_cons.mp hm with rfl | hm
        · exact ⟨hdirectory, hreparse⟩
        · exact hplain m (List.mem_cons_of_mem _ hm)
    · show s.current ++ [backslash] = _
      rw [hcurrent, joined, withSeparator_valid (hreached.valid _ List.mem_cons_self)]
  | @file n hpc htop hregular hreparse =>
    obtain ⟨r, name, names, m, nodes, hreached, hplain, hcurrent, hsegments⟩ :=
      (rootedExact_at hpc).mpr exact
    cases top_unique hreached.top htop
    rw [if_pos rfl, List.append_nil] at hsegments
    have hnames : (segments job.relative).reverse = name :: names := by
      rw [hsegments, List.reverse_reverse]
    exact ⟨r, n, nodes, hnames ▸ hreached.move, hplain, hreparse⟩
  | finalPath hpc =>
    obtain ⟨r, f, nodes, htraced⟩ := (rootedExact_at hpc).mpr exact
    exact ⟨r, f, nodes, htraced.move⟩
  | information hpc htop hlinks =>
    obtain ⟨r, f, nodes, htraced⟩ := (rootedExact_at hpc).mpr exact
    cases top_unique htraced.reached.top htop
    exact ⟨r, _, nodes, htraced.move, hlinks⟩
  | fileSize hpc =>
    obtain ⟨r, f, nodes, htraced, hlinks⟩ := (rootedExact_at hpc).mpr exact
    exact ⟨r, f, nodes, htraced.move, hlinks⟩
  | alloc hpc =>
    obtain ⟨r, f, nodes, htraced, hlinks⟩ := (rootedExact_at hpc).mpr exact
    exact ⟨r, f, nodes, htraced.move, hlinks⟩
  | @read size count n hpc =>
    obtain ⟨r, f, nodes, htraced, hlinks⟩ := (rootedExact_at hpc).mpr exact
    have hread : RootedExact job { s with
        pc := .read size
        buffer := s.buffer ++ ((s.fs.bytes n).drop s.buffer.length).take count } :=
      ⟨r, f, nodes, htraced.move, hlinks⟩
    rwa [← hpc] at hread
  | short hpc =>
    unfold RootedState.release
    split <;> trivial
  | @close success handle components hpc =>
    have hclose : RootedExact job { s.closeHandle handle with
        pc := .close success, components := components } := trivial
    rwa [← hpc, ← closeHandle_pc s handle] at hclose
  | finished => exact exact

end ChoonzMoba
