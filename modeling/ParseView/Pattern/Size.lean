import ParseView.Pattern.Simple

/-!
# How large a compiled pattern is

A pattern is compiled to two automata over bytes, one for each direction of reading, and refused if
either grows past a limit. Nothing is compiled here: the size of an automaton is a sum over the
simplest form of the pattern, in which a counted repetition multiplies what it repeats.
-/

namespace ParseView.Pattern

inductive Direction where
  | forward
  | backward
deriving DecidableEq, Repr

/-- Bytes of a state, of a labelled edge and of an unlabelled one. -/
def stateSize : Nat := 32
def edgeSize : Nat := 8
def jumpSize : Nat := 4

/-- The greatest size of one automaton. -/
def sizeLimit : Nat := 10 * 1024 * 1024

/-- What follows each first range in sorted sequences. -/
def tailsByHead : List ByteRanges → List ((Nat × Nat) × List ByteRanges)
  | [] => []
  | [] :: rest => tailsByHead rest
  | (head :: tail) :: rest =>
    match tailsByHead rest with
    | (head', tails) :: more =>
      if head = head' then (head, tail :: tails) :: more else (head, [tail]) :: (head', tails) :: more
    | [] => [(head, [tail])]

/-- The nodes of the automaton that shares what is equal behind it, each given by the sequences
that lead from it to the end. -/
def nodesFrom : Nat → List (List ByteRanges) → List (List ByteRanges)
  | 0, _ => []
  | depth + 1, level =>
    let next := level.flatMap fun node => (tailsByHead node).map (·.2)
    let next := (next.filter fun tails => tails ≠ [[]]).eraseDups
    level ++ nodesFrom depth next

/-- The size of a class of characters, more than one and not all of them ASCII. -/
def wideSize (direction : Direction) (intervals : List Interval) : Nat :=
  let sequences := sequencesOf intervals
  match direction with
  | .forward =>
    let nodes := (nodesFrom 4 [sequences]).eraseDups
    let edges := nodes.foldl (fun count node => count + (tailsByHead node).length) 0
    (nodes.length + 1) * stateSize + edges * edgeSize
  | .backward =>
    -- Backwards a state is shared by the sequences that begin alike.
    let beginnings := (sequences.flatMap fun s => (List.range s.length).map fun n => s.take (n + 1))
    (beginnings.eraseDups.length + 2) * stateSize + sequences.length * jumpSize

def setSize (direction : Direction) (intervals : List Interval) : Nat :=
  if intervals.isEmpty then stateSize
  else if intervals.all fun (_, high) => high < 0x80 then
    2 * stateSize + intervals.length * edgeSize
  else wideSize direction intervals

/-! ## Choices among texts -/

/-- Texts up to each one that has come to its end, and those behind the last such one. -/
def splitAtEnds : List (List Nat) → List (List (List Nat))
  | [] => [[]]
  | text :: rest =>
    match splitAtEnds rest with
    | [] => []
    | chunk :: chunks => if text.isEmpty then [] :: chunk :: chunks else (text :: chunk) :: chunks

/-- What follows each first byte, the bytes in the order in which they first come. -/
def tailsByByte (texts : List (List Nat)) : List (List (List Nat)) :=
  (texts.filterMap List.head?).eraseDups.map fun byte =>
    texts.filterMap fun text => if text.head? = some byte then some text.tail else none

/-- The states of the tree of some texts, which are no longer than `depth`. Texts that begin alike
share their states as long as none of them ends in between, since the order of the texts decides
between matches. -/
def treeSize : Nat → List (List Nat) → Nat
  | 0, _ => 0
  | depth + 1, texts =>
    if texts.all List.isEmpty then 0
    else
      let chunks := splitAtEnds (texts.dropWhile List.isEmpty)
      -- Of several ends before the first byte one counts.
      let ends := min (texts.takeWhile List.isEmpty).length 1 + (chunks.length - 1)
      let chunkSizes := chunks.map fun chunk =>
        let tails := tailsByByte chunk
        let edges := match tails.length with
          | 0 => 0
          | 1 => stateSize + jumpSize
          | count => stateSize + count * edgeSize + jumpSize
        edges + (tails.map (treeSize depth)).sum
      chunkSizes.sum + ends * jumpSize + stateSize

/-- The bytes of the branches, if all of them are texts. -/
def literalBytes? (branches : List Simple) : Option (List (List Nat)) :=
  branches.mapM fun branch =>
    match branch with
    | .literal codes => some (codes.flatMap utf8Bytes)
    | _ => none

/-- A choice among texts is compiled to their tree, read from the end for the other direction. -/
def textsSize (direction : Direction) (texts : List (List Nat)) : Nat :=
  let texts := match direction with
    | .forward => texts
    | .backward => texts.map List.reverse
  treeSize ((texts.map List.length).foldl max 0 + 1) texts + stateSize

/-! ## Patterns -/

/-- The size of a repetition of something of size `body`. -/
def repetitionSize (body : Nat) (mayBeEmpty : Bool) (least : Nat) (most : Option Nat) : Nat :=
  let fork := stateSize + 2 * jumpSize
  match least, most with
  | 0, some 1 => body + fork + stateSize
  | 0, none => if mayBeEmpty then body + 2 * fork + stateSize else body + fork
  | least, none => least * body + fork
  | least, some most =>
    if least = most then least * body
    else max (least * body) stateSize + (most - least) * (body + fork) + stateSize

mutual

/-- The size of the automaton of a pattern. -/
def Simple.size (direction : Direction) : Simple → Nat
  | .literal codes => (codes.flatMap utf8Bytes).length * stateSize
  | .set intervals => setSize direction intervals
  | .look _ => stateSize
  | .capture body =>
    Simple.size direction body + (if direction = .forward then 2 * stateSize else 0)
  | .repetition body least most _ =>
    repetitionSize (Simple.size direction body) body.mayBeEmpty least most
  | .concat parts => max (Simple.sizeAll direction parts) stateSize
  | .choice branches =>
    match literalBytes? branches with
    | some texts => textsSize direction texts
    | none => Simple.sizeAll direction branches + 2 * stateSize + branches.length * jumpSize

def Simple.sizeAll (direction : Direction) : List Simple → Nat
  | [] => 0
  | first :: rest => Simple.size direction first + Simple.sizeAll direction rest

end

/-- The states around a pattern: where a search begins, where a match ends. -/
def frameSize : Nat := 6 * stateSize + 2 * edgeSize

def Simple.fits (s : Simple) : Bool :=
  s.size .forward + frameSize ≤ sizeLimit && s.size .backward + frameSize ≤ sizeLimit

/-- Is the simplest form of the term small enough in both directions? -/
def Term.fits (mode : Mode) (term : Term) : Bool :=
  (term.simplify mode).any fun (s, _) => s.fits

end ParseView.Pattern
