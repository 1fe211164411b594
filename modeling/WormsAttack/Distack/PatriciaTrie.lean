/-
  The trie in which subnets are counted.

  Source: distack-1.2.3-dev/src/base/common/PatriciaTrie.h.

  A node has the number of the bit it tests, a key with its data, and two links.  A link to a
  node with a larger bit number goes down; all others go up, or to the node itself.  The head
  has the bit number -1, the default key, and only its right link is used.

  MEMORY.  Nodes are named by numbers, in the order in which they are created; the number of a
  deleted node is not used again.  Reading a node that is not there stops the operation.

  KEYS have a fixed width.  The bits are numbered from the first byte on, the most significant
  bit of each byte first.

  LOOPS.  The bit number grows with every step down, so no loop takes more steps than a key has
  bits; one that did would stop as endless.
-/
import Mathlib.Logic.Function.Basic

namespace WormsAttack.Distack.PatriciaTrie

abbrev Key (w : Nat) := Vector UInt8 w

/-- `bit_get`: the bit with number `n`, or 2 as a pseudo bit. -/
def bitGet (bitStream : List UInt8) (n : Int) : Nat :=
  if n < 0 then 2
  else
    let byteno := n.toNat / 8
    let bitno := 8 - 1 - n.toNat % 8
    let bitmask := 1 <<< bitno
    ((bitStream.getD byteno 0).toNat &&& bitmask) >>> bitno

/-- The first loop of `bit_first_different`. -/
def firstDifferentByte : List UInt8 → List UInt8 → Nat
  | x :: xs, y :: ys => if x = y then firstDifferentByte xs ys + 1 else 0
  | _, _ => 0

/-- The second loop of `bit_first_different`. -/
def firstDifferentBit (k₁ k₂ : List UInt8) : (fuel d : Nat) → Nat
  | 0, d => d
  | fuel + 1, d => if bitGet k₁ d = bitGet k₂ d then firstDifferentBit k₁ k₂ fuel (d + 1) else d

/-- `bit_first_different`, for keys that differ. -/
def bitFirstDifferent {w : Nat} (k₁ k₂ : Key w) : Nat :=
  let n := firstDifferentByte k₁.toList k₂.toList
  let d := firstDifferentBit (k₁.toList.drop n) (k₂.toList.drop n) 8 0
  (n <<< 3) + d

structure Node (w : Nat) (T : Type) where
  bitIndex : Int
  key : Key w
  data : T
  left : Nat
  right : Nat

inductive Stop
  /-- a node that is not there is read -/
  | dangling
  | endless
  /-- a link becomes `NULL`, or a variable is read before it is set -/
  | null
  | assertion
  deriving DecidableEq

structure Memory (w : Nat) (T : Type) where
  cells : Nat → Option (Node w T)
  next : Nat

namespace Memory

variable {w : Nat} {T : Type}

def empty : Memory w T where
  cells := fun _ => none
  next := 0

def read (m : Memory w T) (a : Nat) : Except Stop (Node w T) :=
  match m.cells a with
  | none => .error .dangling
  | some node => .ok node

def write (m : Memory w T) (a : Nat) (node : Node w T) : Memory w T :=
  { m with cells := Function.update m.cells a (some node) }

/-- `new`; the node is `m.next`. -/
def alloc (m : Memory w T) (node : Node w T) : Memory w T where
  cells := Function.update m.cells m.next (some node)
  next := m.next + 1

def free (m : Memory w T) (a : Nat) : Memory w T :=
  { m with cells := Function.update m.cells a none }

/-- The link on the side that the bit of `k` selects. -/
def link (node : Node w T) (k : Key w) : Nat :=
  if bitGet k.toList node.bitIndex ≠ 0 then node.right else node.left

def setLink (node : Node w T) (k : Key w) (target : Nat) : Node w T :=
  if bitGet k.toList node.bitIndex ≠ 0 then { node with right := target }
  else { node with left := target }

def rewire (m : Memory w T) (k : Key w) (p target : Nat) : Except Stop (Memory w T) := do
  let node ← m.read p
  .ok (m.write p (setLink node k target))

/-- The loop that all operations begin with: down from `p` and its child `x` on the side of
`k`, as long as the bit number of `x` is one of `below`.  `pp` is the node before `p`. -/
def descend (m : Memory w T) (k : Key w) (below : Int → Bool) :
    (fuel : Nat) → Option Nat → Nat → Nat → Except Stop (Option Nat × Nat × Nat)
  | 0, _, _, _ => .error .endless
  | fuel + 1, pp, p, x => do
      let pnode ← m.read p
      let xnode ← m.read x
      if pnode.bitIndex < xnode.bitIndex ∧ below xnode.bitIndex then
        descend m k below fuel (some p) x (link xnode k)
      else .ok (pp, p, x)

/-- The steps that a loop can take at most, with the one that ends it. -/
def bound (w : Nat) : Nat := 8 * w + 1

def setData (m : Memory w T) (a : Nat) (d : T) : Except Stop (Memory w T) := do
  let node ← m.read a
  .ok (m.write a { node with data := d })

/-- The constructor of `PatriciaTrie`: the head links to itself. -/
def create (m : Memory w T) (defaultKey : Key w) (defaultData : T) : Nat × Memory w T :=
  (m.next, m.alloc ⟨-1, defaultKey, defaultData, m.next, m.next⟩)

/-- `LookupGroup`: where the bits of the key lead. -/
def lookupGroup (m : Memory w T) (head : Nat) (k : Key w) : Except Stop Nat := do
  let root ← m.read head
  let (_, _, t) ← m.descend k (fun _ => true) (bound w) none head root.right
  .ok t

def lookupNode (m : Memory w T) (head : Nat) (k : Key w) : Except Stop (Option Nat) := do
  let x ← m.lookupGroup head k
  let node ← m.read x
  .ok (if k = node.key then some x else none)

/-- `Exists`. -/
def existsKey (m : Memory w T) (head : Nat) (k : Key w) : Except Stop Bool := do
  let node ← m.lookupNode head k
  .ok node.isSome

def lookup (m : Memory w T) (head : Nat) (k : Key w) (defaultData : T) : Except Stop T := do
  match ← m.lookupNode head k with
  | none => .ok defaultData
  | some x =>
      let node ← m.read x
      .ok node.data

/-- The node that `Insert` creates as `t`: on the side of its own bit it links to itself. -/
def newNode (k : Key w) (d : T) (i : Int) (t x : Nat) : Node w T :=
  if bitGet k.toList i ≠ 0 then ⟨i, k, d, x, t⟩ else ⟨i, k, d, t, x⟩

/-- `Insert`: the new node, if the key is not in the trie. -/
def insert (m : Memory w T) (head : Nat) (k : Key w) (d : T) :
    Except Stop (Option Nat × Memory w T) := do
  let t ← m.lookupGroup head k
  let found ← m.read t
  if k = found.key then .ok (none, m)
  else
    let i := bitFirstDifferent k found.key
    let root ← m.read head
    let (_, p, x) ← m.descend k (fun b => b < i) (bound w) none head root.right
    let t := m.next
    let m ← (m.alloc (newNode k d i t x)).rewire k p t
    .ok (some t, m)

def keyCopy (src dest : Node w T) : Node w T :=
  { dest with key := src.key, data := src.data }

/-- The part of `Delete` that makes the leaf which links to `p` link to `t`: whether it was
found. -/
def rewireLeaf (m : Memory w T) (p t : Nat) : Except Stop (Bool × Memory w T) := do
  let pnode ← m.read p
  let (_, lp, x) ← m.descend pnode.key (fun _ => true) (bound w) none p (link pnode pnode.key)
  let xnode ← m.read x
  if pnode.key = xnode.key then
    let m ← m.rewire pnode.key lp t
    .ok (true, m)
  else .ok (false, m)

/-- It is looked for only if a link of `p` goes down and `t` is another node. -/
def rewireDown (m : Memory w T) (p t : Nat) (down : Bool) : Except Stop (Bool × Memory w T) :=
  if down && p != t then m.rewireLeaf p t else .ok (true, m)

/-- What `Delete` puts in the place of `p`: the child on the side that `k` does not select if
one of the links goes down, and otherwise the link that is not to `p` itself. -/
def replacement (m : Memory w T) (k : Key w) (pp p : Nat) (down : Bool) : Except Stop Nat := do
  let pnode ← m.read p
  if down then .ok (if bitGet k.toList pnode.bitIndex ≠ 0 then pnode.left else pnode.right)
  else if pnode.left = pnode.right ∧ pnode.left = p then .ok pp
  else .ok (if pnode.left = p then pnode.right else pnode.left)

/-- The part of `Delete` that rewires the node before `p`. -/
def rewireParent (m : Memory w T) (k : Key w) (pp : Option Nat) (p : Nat) (down : Bool) :
    Except Stop (Memory w T) :=
  match pp with
  | none => .error .null
  | some pp =>
      if pp ≠ p then do
        let item ← m.replacement k pp p down
        m.rewire k pp item
      else .ok m

def delete (m : Memory w T) (head : Nat) (k : Key w) : Except Stop (Bool × Memory w T) := do
  let root ← m.read head
  let (pp, p, t) ← m.descend k (fun _ => true) (bound w) none head root.right
  let tnode ← m.read t
  if k ≠ tnode.key then .ok (false, m)
  else
    let pnode ← m.read p
    let m := if t ≠ p then m.write t (keyCopy pnode tnode) else m
    let pnode ← m.read p
    let lnode ← m.read pnode.left
    let rnode ← m.read pnode.right
    let down : Bool := pnode.bitIndex < lnode.bitIndex ∨ pnode.bitIndex < rnode.bitIndex
    let (found, m) ← m.rewireDown p t down
    if found then
      let m ← m.rewireParent k pp p down
      .ok (true, m.free p)
    else .ok (false, m)

/-- `GetNodeList`, from a node on. -/
def getNodeList (m : Memory w T) : (fuel : Nat) → (root : Nat) → Except Stop (List Nat)
  | 0, _ => .error .endless
  | fuel + 1, root => do
      let node ← m.read root
      let left ← m.read node.left
      let right ← m.read node.right
      let newItemsLeft ←
        (if node.bitIndex < left.bitIndex then getNodeList m fuel node.left else .ok [])
      let newItemsRight ←
        (if node.bitIndex < right.bitIndex then getNodeList m fuel node.right else .ok [])
      .ok ((if 0 ≤ node.bitIndex then [root] else []) ++ newItemsLeft ++ newItemsRight)

/-! ### Copy -/

def child (node : Node w T) : (right : Bool) → Nat
  | false => node.left
  | true => node.right

def withChild (node : Node w T) (target : Nat) : (right : Bool) → Node w T
  | false => { node with left := target }
  | true => { node with right := target }

def setChild (m : Memory w T) (a : Nat) (right : Bool) (target : Nat) :
    Except Stop (Memory w T) := do
  let node ← m.read a
  .ok (m.write a (withChild node target right))

/-- The part of `Copy` that creates the nodes.  A link that does not go down is one of the new
node to itself. -/
def copyNodes (m : Memory w T) : (fuel : Nat) → (root : Nat) → Except Stop (Nat × Memory w T)
  | 0, _ => .error .endless
  | fuel + 1, root => do
      let node ← m.read root
      let new := m.next
      let m := m.alloc ⟨node.bitIndex, node.key, node.data, new, new⟩
      let left ← m.read node.left
      let (target, m) ←
        (if node.bitIndex < left.bitIndex then copyNodes m fuel node.left else .ok (new, m))
      let m ← m.setChild new false target
      let right ← m.read node.right
      let (target, m) ←
        (if node.bitIndex < right.bitIndex then copyNodes m fuel node.right else .ok (new, m))
      let m ← m.setChild new true target
      .ok (new, m)

/-- The loop of `find_bitindex_node`. -/
def firstWithBit (m : Memory w T) (bitindex : Int) : List Nat → Except Stop Nat
  | [] => .error .null
  | a :: rest => do
      let node ← m.read a
      if node.bitIndex = bitindex then .ok a else firstWithBit m bitindex rest

def findBitindexNode (m : Memory w T) (head root : Nat) (bitindex : Int) : Except Stop Nat :=
  if bitindex = -1 then .ok head
  else do
    let nodes ← m.getNodeList (bound w) root
    m.firstWithBit bitindex nodes

/-- The new node gets its link on one side if that of the original node goes up. -/
def adaptChild (m : Memory w T) (newHead origNode newNode : Nat) (right : Bool) :
    Except Stop (Memory w T) := do
  let node ← m.read origNode
  let target ← m.read (child node right)
  if target.bitIndex < node.bitIndex then do
    let found ← m.findBitindexNode newHead newHead target.bitIndex
    m.setChild newNode right found
  else .ok m

/-- The loop of `Copy` that adapts the back edges. -/
def adaptAll [DecidableEq T] (m : Memory w T) (newHead : Nat) :
    List Nat → List Nat → Except Stop (Memory w T)
  | origNode :: origNodes, newNode :: newNodes => do
      let orig ← m.read origNode
      let new ← m.read newNode
      if origNode ≠ newNode ∧ orig.key = new.key ∧ orig.bitIndex = new.bitIndex ∧
          orig.data = new.data then do
        let m ← m.adaptChild newHead origNode newNode false
        let m ← m.adaptChild newHead origNode newNode true
        adaptAll m newHead origNodes newNodes
      else .error .assertion
  | _, _ => .ok m

/-- `Copy`: the head of the new trie. -/
def copy [DecidableEq T] (m : Memory w T) (head : Nat) : Except Stop (Nat × Memory w T) := do
  let (newHead, m) ← m.copyNodes (bound w) head
  let origNodes ← m.getNodeList (bound w) head
  let newNodes ← m.getNodeList (bound w) newHead
  if origNodes.length = newNodes.length then do
    let m ← m.adaptAll newHead origNodes newNodes
    .ok (newHead, m)
  else .error .assertion

end Memory

end WormsAttack.Distack.PatriciaTrie
