/-!
# Blocks

A block of the nested stylesheet holds the rule texts written at its own path and
the blocks nested in it, each under its segment. Blocks are listed in the order of
their first use, and the rule texts stand together at the place of the first of
them.
-/

namespace CssNest

/-- `x` before the member at position `i`, or at the end when `i` is the length. -/
def insertAt {α : Type} (i : Option Nat) (x : α) (xs : List α) : List α :=
  match i with
  | none => xs
  | some i => if i ≤ xs.length then xs.take i ++ x :: xs.drop i else xs

/-- The value of `k` changed by `f`, in place; a new key goes to the end with `f fresh`. -/
def upsert {κ ν : Type} [BEq κ] (k : κ) (fresh : ν) (f : ν → ν) :
    List (κ × ν) → List (κ × ν)
  | [] => [(k, f fresh)]
  | (key, v) :: rest =>
    if key == k then (key, f v) :: rest else (key, v) :: upsert k fresh f rest

/-- A node of the nested stylesheet. -/
inductive Block where
  /--
  The nested blocks by segment, the rule texts, and the number of nested blocks there
  were when the first rule text came.
  -/
  | mk (children : List (String × Block)) (rules : List String) (rulesAt : Option Nat)
deriving Inhabited

/-- What stands in a block, one after the other. -/
inductive Block.Entry where
  | rules (texts : List String)
  | child (segment : String) (block : Block)

namespace Block

/-- The block with nothing in it. -/
def empty : Block := mk [] [] none

/-- The nested blocks by segment. -/
def children : Block → List (String × Block)
  | mk cs _ _ => cs

/-- The rule texts in order. -/
def rules : Block → List String
  | mk _ rs _ => rs

/-- How many nested blocks stand before the rule texts, once there are any. -/
def rulesAt : Block → Option Nat
  | mk _ _ i => i

/-- The segments of the nested blocks. -/
def segments (b : Block) : List String := b.children.map Prod.fst

/-- The nested block of a segment. -/
def child? (b : Block) (segment : String) : Option Block := b.children.lookup segment

/-- The block at a path below this one. -/
def descend? (b : Block) : List String → Option Block
  | [] => some b
  | segment :: rest => (b.child? segment).bind fun c => c.descend? rest

/-- One more rule text; the first one fixes their place among the nested blocks. -/
def addRule (b : Block) (rule : String) : Block :=
  mk b.children (b.rules ++ [rule]) (b.rulesAt.or (some b.children.length))

/-- Changes the block at a path, creating the blocks on the way that are missing. -/
def modifyAt (f : Block → Block) : List String → Block → Block
  | [], b => f b
  | segment :: rest, b =>
    mk (upsert segment empty (modifyAt f rest) b.children) b.rules b.rulesAt

/-- What stands in the block, in order. -/
def entries (b : Block) : List Entry :=
  insertAt b.rulesAt (.rules b.rules) (b.children.map fun c => .child c.1 c.2)

mutual

/-- Whether two blocks hold the same in the same order, at every depth. -/
def same : Block → Block → Bool
  | mk cs rs i, mk ds ss j => sameChildren cs ds && rs == ss && i == j

/-- Whether two lists of nested blocks are the same. -/
def sameChildren : List (String × Block) → List (String × Block) → Bool
  | [], [] => true
  | (s, b) :: cs, (t, d) :: ds => s == t && b.same d && sameChildren cs ds
  | _, _ => false

end

instance : BEq Block := ⟨same⟩

end Block

end CssNest
