import Mathlib.Data.List.Basic
import Mathlib.Data.Option.Basic
import Mathlib.Tactic.Common

/-- Directories, and what a name in one of them leads to. -/
structure FileTree (Node Name : Type) where
  top : Node
  entry : Node → Name → Option Node

namespace FileTree

variable {Node Name : Type}

def walk (t : FileTree Node Name) : Node → List Name → Option Node
  | n, [] => some n
  | n, name :: names => (t.entry n name).bind fun m => walk t m names

def Leads (t : FileTree Node Name) (names : List Name) (n : Node) : Prop :=
  t.walk t.top names = some n

instance [DecidableEq Node] (t : FileTree Node Name) (names : List Name) (n : Node) :
    Decidable (t.Leads names n) :=
  inferInstanceAs (Decidable (_ = _))

structure Pins (held : Node → Prop) (t t' : FileTree Node Name) : Prop where
  top : t'.top = t.top
  leads : ∀ n, held n → ∀ names, t.Leads names n → t'.Leads names n

def Linked (t : FileTree Node Name) (root : Node) : List Name → List Node → Prop
  | [], [] => True
  | name :: names, n :: nodes =>
    t.entry (nodes.headD root) name = some n ∧ Linked t root names nodes
  | [], _ :: _ => False
  | _ :: _, [] => False

variable {t t' : FileTree Node Name} {held : Node → Prop} {n m root : Node}
  {names names' : List Name} {nodes : List Node}

theorem walk_append (t : FileTree Node Name) (n : Node) (names names' : List Name) :
    t.walk n (names ++ names') = (t.walk n names).bind fun m => t.walk m names' := by
  induction names generalizing n with
  | nil => rfl
  | cons name names ih =>
    rw [List.cons_append, walk, walk, Option.bind_assoc]
    exact congrArg _ (funext fun m => ih m)

theorem Leads.walk_eq (h : t.Leads names n) : t.walk t.top (names ++ names') = t.walk n names' := by
  rw [walk_append, show t.walk t.top names = some n from h]
  rfl

theorem walk_congr {Key : Type} (key : Name → Key)
    (hkey : ∀ d x y, key x = key y → t.entry d x = t.entry d y) (h : names.map key = names'.map key)
    (n : Node) : t.walk n names = t.walk n names' := by
  induction names generalizing n names' with
  | nil => rw [List.map_eq_nil_iff.mp h.symm]
  | cons name names ih =>
    cases names' with
    | nil => cases h
    | cons name' names' =>
      obtain ⟨hname, hnames⟩ := List.cons.inj h
      rw [walk, walk, hkey n name name' hname]
      exact congrArg _ (funext fun m => ih hnames m)

theorem Linked.walk (h : t.Linked root names nodes) :
    t.walk root names.reverse = some (nodes.headD root) := by
  induction names generalizing nodes with
  | nil =>
    cases nodes with
    | nil => rfl
    | cons n nodes => exact h.elim
  | cons name names ih =>
    cases nodes with
    | nil => exact h.elim
    | cons n nodes =>
      rw [List.reverse_cons, walk_append, ih h.2]
      exact (Option.bind_fun_some _).trans h.1

theorem Pins.walk (hpins : t.Pins held t') (hroot : t.Leads names root) (hheld : held root)
    (hn : held n) (hwalk : t.walk root names' = some n) : t'.walk root names' = some n := by
  have hleads : t.Leads (names ++ names') n := hroot.walk_eq.trans hwalk
  exact (hpins.leads root hheld names hroot).walk_eq.symm.trans (hpins.leads n hn _ hleads)

theorem Pins.linked (hpins : t.Pins held t') (hroot : t.Leads names' root) (hheld : held root)
    (hnodes : ∀ n ∈ nodes, held n) (h : t.Linked root names nodes) :
    t'.Linked root names nodes := by
  induction names generalizing nodes with
  | nil =>
    cases nodes with
    | nil => trivial
    | cons n nodes => exact h.elim
  | cons name names ih =>
    cases nodes with
    | nil => exact h.elim
    | cons n nodes =>
      have hlinked := ih (fun m hm => hnodes m (List.mem_cons_of_mem _ hm)) h.2
      have hwalk := hpins.walk hroot hheld (hnodes n List.mem_cons_self) (Linked.walk h)
      rw [List.reverse_cons, walk_append, hlinked.walk] at hwalk
      exact ⟨(Option.bind_fun_some _).symm.trans hwalk, hlinked⟩

end FileTree
