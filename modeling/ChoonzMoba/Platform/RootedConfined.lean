import ChoonzMoba.Library.System
import ChoonzMoba.Platform.RootedOwns

namespace ChoonzMoba

variable {Node : Type}

def RootedState.Holds (s : RootedState Node) (n : Node) : Prop := ∃ handle, s.handles handle = some n

/-- What the other processes cannot do while nodes are held open for reading only: move or delete
a held node or one above it, or write to it. -/
structure Interferes (s : RootedState Node) (fs : FileSystem Node) : Prop where
  pins : s.fs.toFileTree.Pins s.Holds fs.toFileTree
  directory : ∀ n, s.Holds n → fs.directory n = s.fs.directory n
  bytes : ∀ n, s.Holds n → fs.bytes n = s.fs.bytes n
  ordinary : fs.ordinary = s.fs.ordinary

/-- Nor does a well-meaning process turn a held directory into a link, or the root's path aside. -/
structure LeavesAlone (job : RootedJob) (s : RootedState Node) (fs : FileSystem Node) : Prop where
  opens : fs.opens job.full = s.fs.opens job.full
  reparse : ∀ n, s.Holds n → fs.reparse n = s.fs.reparse n
  links : ∀ n, s.Holds n → fs.links n = s.fs.links n

structure Located (s : RootedState Node) (r : Node) : Prop where
  root : s.handles s.root = some r
  directory : s.fs.directory r = true
  leads : s.fs.Leads (pathNames s.finalRoot) r

structure Found (s : RootedState Node) (r f : Node) : Prop extends Located s r where
  top : s.top f
  regular : s.fs.directory f = false
  below : ∃ names, s.fs.walk r names = some f

def RootedConfined (job : RootedJob) (s : RootedState Node) : Prop :=
  match s.pc with
  | .rootFinalPath => ∃ r, s.handles s.root = some r ∧ s.fs.directory r = true
  | .openComponent | .attributes _ => ∃ r, Located s r
  | .finalPath => ∃ r f, Located s r ∧ s.top f ∧ s.fs.directory f = false
  | .information | .fileSize => ∃ r f, Found s r f
  | .alloc size => ∃ r f, Found s r f ∧ size = (s.fs.bytes f).length ∧ size ≤ job.maxBytes
  | .read size => ∃ r f, Found s r f ∧ size = (s.fs.bytes f).length ∧ size ≤ job.maxBytes ∧
      s.buffer = (s.fs.bytes f).take s.buffer.length
  | .openRoot | .rootAttributes | .close _ | .closeRoot _ | .finished _ => True

variable {job : RootedJob} {calm : Prop} {s t : RootedState Node} {fs : FileSystem Node}
  {n m r f : Node}

theorem top_unique (h : s.top n) (h' : s.top m) : m = n := by
  obtain ⟨handle, components, hcomponents, hnode⟩ := h
  obtain ⟨handle', components', hcomponents', hnode'⟩ := h'
  rw [hcomponents] at hcomponents'
  cases hcomponents'
  exact Option.some.inj (hnode'.symm.trans hnode)

theorem top_holds (h : s.top n) : s.Holds n := by
  obtain ⟨handle, -, -, hnode⟩ := h
  exact ⟨handle, hnode⟩

theorem Located.interferes (h : Located s r) (hi : Interferes s fs) :
    Located { s with fs := fs } r :=
  ⟨h.root, (hi.directory r ⟨_, h.root⟩).trans h.directory, hi.pins.leads r ⟨_, h.root⟩ _ h.leads⟩

theorem Found.interferes (h : Found s r f) (hi : Interferes s fs) :
    Found { s with fs := fs } r f := by
  obtain ⟨hlocated, htop, hregular, names, hwalk⟩ := h
  refine ⟨hlocated.interferes hi, htop, (hi.directory f (top_holds htop)).trans hregular, names, ?_⟩
  exact hi.pins.walk hlocated.leads ⟨_, hlocated.root⟩ (top_holds htop) hwalk

theorem Found.bytes (h : Found s r f) (hi : Interferes s fs) : fs.bytes f = s.fs.bytes f :=
  hi.bytes f (top_holds h.top)

theorem RootedConfined.interferes (h : RootedConfined job s) (hi : Interferes s fs) :
    RootedConfined job { s with fs := fs } := by
  obtain ⟨pc, fs₀, handles, root, finalRoot, current, rest, components, buffer, block, out,
    misused⟩ := s
  cases pc with
  | openRoot | rootAttributes | close | closeRoot | finished => trivial
  | rootFinalPath =>
    obtain ⟨r, hroot, hdirectory⟩ := h
    exact ⟨r, hroot, (hi.directory r ⟨_, hroot⟩).trans hdirectory⟩
  | openComponent | «attributes» =>
    obtain ⟨r, hr⟩ := h
    exact ⟨r, hr.interferes hi⟩
  | finalPath =>
    obtain ⟨r, f, hr, htop, hregular⟩ := h
    exact ⟨r, f, hr.interferes hi, htop, (hi.directory f (top_holds htop)).trans hregular⟩
  | information | fileSize =>
    obtain ⟨r, f, hf⟩ := h
    exact ⟨r, f, hf.interferes hi⟩
  | alloc size =>
    obtain ⟨r, f, hf, hsize, hmax⟩ := h
    exact ⟨r, f, hf.interferes hi, (hf.bytes hi).symm ▸ hsize, hmax⟩
  | read size =>
    obtain ⟨r, f, hf, hsize, hmax, hbuffer⟩ := h
    exact ⟨r, f, hf.interferes hi, (hf.bytes hi).symm ▸ hsize, hmax, (hf.bytes hi).symm ▸ hbuffer⟩

theorem Located.open {handle : Nat} {current rest : WidePath} {last : Bool} (h : Located s r)
    (hfresh : s.handles handle = none) : Located { s with
      pc := .attributes last
      current := current
      rest := rest
      handles := Function.update s.handles handle (some n)
      components := handle :: s.components } r := by
  refine ⟨?_, h.directory, h.leads⟩
  refine (Function.update_of_ne ?_ _ _).trans h.root
  intro heq
  have hroot := h.root
  rw [heq, hfresh] at hroot
  cases hroot

theorem Located.below (h : Located s r) {path : WidePath} (hleads : s.fs.Leads (pathNames path) f)
    (hdescendant : win32PathIsDescendant s.finalRoot path = true) :
    ∃ names, s.fs.walk r names = some f := by
  obtain ⟨names, hnames⟩ := descendant_names hdescendant
  have hwalk := FileTree.walk_congr (List.map foldWide) s.fs.entry_fold hnames s.fs.top
  exact ⟨names, (h.leads.walk_eq.symm.trans hwalk.symm).trans hleads⟩

theorem closeHandle_pc (s : RootedState Node) (handle : Nat) : (s.closeHandle handle).pc = s.pc := by
  unfold RootedState.closeHandle
  split <;> rfl

end ChoonzMoba
