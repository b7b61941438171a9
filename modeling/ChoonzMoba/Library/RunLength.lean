import Mathlib.Data.List.Basic
import Mathlib.Tactic.Common

/-- One value to be repeated, or values as they are: at least one and at most `limit` of them. -/
inductive RunLength.Packet (α : Type) (limit : Nat) where
  | run (count : Nat) (value : α) (pos : 0 < count) (le : count ≤ limit)
  | raw (values : List α) (pos : 0 < values.length) (le : values.length ≤ limit)

namespace RunLength

variable {α : Type} {limit : Nat}

def Packet.expand : Packet α limit → List α
  | .run count value _ _ => List.replicate count value
  | .raw values _ _ => values

def expand (packets : List (Packet α limit)) : List α := packets.flatMap Packet.expand

@[simp] theorem Packet.expand_run (count : Nat) (value : α) (pos : 0 < count) (le : count ≤ limit) :
    (run count value pos le).expand = List.replicate count value := rfl

@[simp] theorem Packet.expand_raw (values : List α) (pos : 0 < values.length)
    (le : values.length ≤ limit) : (raw values pos le).expand = values := rfl

theorem Packet.expand_length_pos (p : Packet α limit) : 0 < p.expand.length := by
  cases p with
  | run count value pos le => rwa [expand, List.length_replicate]
  | raw values pos le => exact pos

theorem Packet.expand_length_le (p : Packet α limit) : p.expand.length ≤ limit := by
  cases p with
  | run count value pos le => rwa [expand, List.length_replicate]
  | raw values pos le => exact le

@[simp] theorem expand_nil : expand ([] : List (Packet α limit)) = [] := rfl

@[simp] theorem expand_cons (p : Packet α limit) (packets : List (Packet α limit)) :
    expand (p :: packets) = p.expand ++ expand packets := rfl

end RunLength
