/-!
# Identities

Three kinds of identity appear in a handshake:

* an `InstanceId` tells one run of the program from another; it is drawn at random once;
* a `PeerId` tells one handler from another; they are numbered from one and never used again, so a
  master can tell a handler that was started anew from an old one;
* a `SocketId` names a connection, also after it has been handed over.
-/

namespace ReplicaHandshake

/-- The identity of one running replica. -/
abbrev InstanceId := BitVec 128

/-- The version that a random identity carries in the upper half of its seventh byte. -/
def InstanceId.version (id : InstanceId) : Nat :=
  (id.extractLsb' 76 4).toNat

/-- The identity that a handler presents to its masters and to the multiplexer. -/
structure PeerId where
  number : Nat
deriving DecidableEq, Repr

/-- The identity of a connection. -/
structure SocketId where
  number : Nat
deriving DecidableEq, Repr

instance : ToString PeerId := ⟨fun id => toString id.number⟩
instance : ToString SocketId := ⟨fun id => toString id.number⟩

/-- The peer that is numbered first. -/
def PeerId.first : PeerId := ⟨1⟩

/-- The peer that is numbered after another one. -/
def PeerId.next (id : PeerId) : PeerId := ⟨id.number + 1⟩

/-- The socket that is numbered first. -/
def SocketId.first : SocketId := ⟨1⟩

/-- The socket that is numbered after another one. -/
def SocketId.next (id : SocketId) : SocketId := ⟨id.number + 1⟩

/-- The first `n` identities of a sequence. -/
def firstIds {α : Type} (first : α) (next : α → α) : Nat → List α
  | 0 => []
  | n + 1 => first :: firstIds (next first) next n

theorem PeerId.number_lt_next (id : PeerId) : id.number < id.next.number :=
  Nat.lt_succ_self _

theorem firstIds_eq_map (first : Nat) (n : Nat) :
    firstIds first (· + 1) n = (List.range n).map (first + ·) := by
  induction n generalizing first with
  | zero => rfl
  | succ n ih =>
    simp only [firstIds, ih, List.range_succ_eq_map, List.map_cons, List.map_map, Nat.add_zero,
      List.cons.injEq, true_and]
    apply List.map_congr_left
    intro i _
    simp only [Function.comp_apply]
    omega

end ReplicaHandshake
