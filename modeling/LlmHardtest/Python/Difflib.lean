import LlmHardtest.Python.Lines
set_option autoImplicit false

/-! `difflib.SequenceMatcher` with no junk function: the longest matching block with the
popular-element heuristic, matching blocks, opcodes, and grouped opcodes. The opcodes of any
two lists form an edit script that reads both lists from end to end. -/

namespace Python.Difflib

structure Match where
  i : Nat
  j : Nat
  size : Nat
  deriving DecidableEq, Repr

inductive Tag where
  | equal | replace | delete | insert
  deriving DecidableEq, Repr

structure Opcode where
  tag : Tag
  i1 : Nat
  i2 : Nat
  j1 : Nat
  j2 : Nat
  deriving DecidableEq, Repr

section Matcher
variable {α : Type} [DecidableEq α]

def slice (l : List α) (i j : Nat) : List α := (l.drop i).take (j - i)

/-- `autojunk`: an element filling more than 1% of a list of at least 200 is not indexed. -/
def popular (b : List α) (x : α) : Bool :=
  decide (200 ≤ b.length) && decide (b.length / 100 + 1 < b.count x)

def b2j (b : List α) (x : α) : List Nat :=
  if popular b x then [] else (List.range b.length).filter (fun j => b[j]? == some x)

/-- One row of `find_longest_match`: `j2len` is the previous row, `newj2len` the one being built. -/
def scanRow (i : Nat) (j2len : List (Nat × Nat)) :
    List Nat → List (Nat × Nat) → Match → List (Nat × Nat) × Match
  | [], newj2len, best => (newj2len, best)
  | j :: js, newj2len, best =>
      let k := (if j = 0 then 0 else (j2len.lookup (j - 1)).getD 0) + 1
      scanRow i j2len js ((j, k) :: newj2len)
        (if best.size < k then ⟨i + 1 - k, j + 1 - k, k⟩ else best)

def scanRows (a b : List α) (blo bhi : Nat) :
    List Nat → List (Nat × Nat) → Match → Match
  | [], _, best => best
  | i :: is, j2len, best =>
      let js := match a[i]? with
        | some x => (b2j b x).filter (fun j => decide (blo ≤ j) && decide (j < bhi))
        | none => []
      let row := scanRow i j2len js [] best
      scanRows a b blo bhi is row.1 row.2

def extendLeft (a b : List α) (alo blo : Nat) : Nat → Match → Match
  | 0, m => m
  | fuel + 1, m =>
      if alo < m.i ∧ blo < m.j ∧ a[m.i - 1]? = b[m.j - 1]? then
        extendLeft a b alo blo fuel ⟨m.i - 1, m.j - 1, m.size + 1⟩
      else m

def extendRight (a b : List α) (ahi bhi : Nat) : Nat → Match → Match
  | 0, m => m
  | fuel + 1, m =>
      if m.i + m.size < ahi ∧ m.j + m.size < bhi ∧ a[m.i + m.size]? = b[m.j + m.size]? then
        extendRight a b ahi bhi fuel ⟨m.i, m.j, m.size + 1⟩
      else m

def findLongestMatch (a b : List α) (alo ahi blo bhi : Nat) : Match :=
  let best := scanRows a b blo bhi (List.range' alo (ahi - alo)) [] ⟨alo, blo, 0⟩
  extendRight a b ahi bhi ahi (extendLeft a b alo blo ahi best)

/-- The recursion of `get_matching_blocks`, in sorted order. The source keeps the halves on an
explicit queue and sorts the blocks at the end. -/
def matchQueue (a b : List α) : Nat → Nat → Nat → Nat → Nat → List Match
  | 0, _, _, _, _ => []
  | fuel + 1, alo, ahi, blo, bhi =>
      let m := findLongestMatch a b alo ahi blo bhi
      if m.size = 0 then [] else
        (if alo < m.i ∧ blo < m.j then matchQueue a b fuel alo m.i blo m.j else []) ++ m ::
        (if m.i + m.size < ahi ∧ m.j + m.size < bhi then
          matchQueue a b fuel (m.i + m.size) ahi (m.j + m.size) bhi else [])

/-- Collapse adjacent blocks; `m` is the block being grown. -/
def mergeAdjacent : Match → List Match → List Match
  | m, [] => if m.size = 0 then [] else [m]
  | m, next :: rest =>
      if m.i + m.size = next.i ∧ m.j + m.size = next.j then
        mergeAdjacent ⟨m.i, m.j, m.size + next.size⟩ rest
      else (if m.size = 0 then [] else [m]) ++ mergeAdjacent next rest

def getMatchingBlocks (a b : List α) : List Match :=
  mergeAdjacent ⟨0, 0, 0⟩ (matchQueue a b (a.length + 1) 0 a.length 0 b.length)
    ++ [⟨a.length, b.length, 0⟩]

def gapOpcode (i j : Nat) (m : Match) : List Opcode :=
  if i < m.i ∧ j < m.j then [⟨.replace, i, m.i, j, m.j⟩]
  else if i < m.i then [⟨.delete, i, m.i, j, m.j⟩]
  else if j < m.j then [⟨.insert, i, m.i, j, m.j⟩]
  else []

def opcodesFrom : Nat → Nat → List Match → List Opcode
  | _, _, [] => []
  | i, j, m :: ms =>
      gapOpcode i j m ++
        (if m.size = 0 then [] else [⟨.equal, m.i, m.i + m.size, m.j, m.j + m.size⟩]) ++
        opcodesFrom (m.i + m.size) (m.j + m.size) ms

def getOpcodes (a b : List α) : List Opcode := opcodesFrom 0 0 (getMatchingBlocks a b)

end Matcher

def trimFirst (n : Nat) : List Opcode → List Opcode
  | ⟨.equal, i1, i2, j1, j2⟩ :: cs => ⟨.equal, max i1 (i2 - n), i2, max j1 (j2 - n), j2⟩ :: cs
  | cs => cs

def trimLast (n : Nat) : List Opcode → List Opcode
  | [] => []
  | [⟨.equal, i1, i2, j1, j2⟩] => [⟨.equal, i1, min i2 (i1 + n), j1, min j2 (j1 + n)⟩]
  | c :: cs => c :: trimLast n cs

/-- The loop of `get_grouped_opcodes`; `group` is the group being collected. -/
def groupCodes (n : Nat) : List Opcode → List Opcode → List (List Opcode)
  | [], group =>
      match group with
      | [] => []
      | [⟨.equal, _, _, _, _⟩] => []
      | _ => [group]
  | c :: cs, group =>
      if c.tag = .equal ∧ n + n < c.i2 - c.i1 then
        (group ++ [⟨c.tag, c.i1, min c.i2 (c.i1 + n), c.j1, min c.j2 (c.j1 + n)⟩]) ::
          groupCodes n cs [⟨c.tag, max c.i1 (c.i2 - n), c.i2, max c.j1 (c.j2 - n), c.j2⟩]
      else groupCodes n cs (group ++ [c])

def getGroupedOpcodes (n : Nat) (codes : List Opcode) : List (List Opcode) :=
  let codes := if codes.isEmpty then [⟨.equal, 0, 1, 0, 1⟩] else codes
  groupCodes n (trimLast n (trimFirst n codes)) []

end Python.Difflib
