import ParseView.Json.Reader

/-!
# The first fault of plain data

Plain data is read with a limit on its depth. The first fault of a text is the one that comes first
in its order, and a list or an object that lies too deep is one of them.
-/

namespace ParseView.Json

/-- How many lists and objects may lie in each other. -/
def depthLimit : Nat := 127

/-- Is a list or an object to be read that lies too deep? -/
def State.isTooDeep (state : State) : Bool :=
  state.value.isNone && depthLimit ≤ state.frames.length &&
    match skipBlank state.unread with
    | '[' :: _ | '{' :: _ => true
    | _ => false

/-- Reads until the outermost value is complete, the text breaks off or lies too deep. -/
def State.runShallow (state : State) : Document :=
  if state.isTooDeep then
    let stop := Stop.same (.seen .tooDeep (skipBlank state.unread))
    cutAll stop (.missing stop) state.frames
  else
    match _h : state.next with
    | .inl document => document
    | .inr next => next.runShallow
termination_by state.unread.length
decreasing_by exact State.length_of_next _h

def Ending.fault? : Ending → Option Fault
  | .closed _ => none
  | .cut stop => some stop.wanted

def faultOfResult? {α : Type} : Except Fault α → Option Fault
  | .ok _ => none
  | .error fault => some fault

mutual

/-- The first fault of a value, all of which is wanted and in which `room` lists and objects may lie
in each other. What lies deeper is told without its place. -/
def Doc.fault? (room : Nat) : Doc → Option Fault
  | .null | .bool _ => none
  | .number n => faultOfResult? n
  | .string s => faultOfResult? s
  | .array items ending =>
    if room = 0 then some (.ending .tooDeep)
    else (Doc.faultOfItems? (room - 1) items).or ending.fault?
  | .object members ending =>
    if room = 0 then some (.ending .tooDeep)
    else (Doc.faultOfMembers? (room - 1) members).or ending.fault?
  | .broken _ stop => some stop.wanted
  | .missing stop => some stop.wanted

def Doc.faultOfItems? (room : Nat) : List Doc → Option Fault
  | [] => none
  | item :: rest => (Doc.fault? room item).or (Doc.faultOfItems? room rest)

def Doc.faultOfMembers? (room : Nat) : List (Key × Doc) → Option Fault
  | [] => none
  | (key, doc) :: rest =>
    ((faultOfResult? key).or (Doc.fault? room doc)).or (Doc.faultOfMembers? room rest)

end

/-- The first fault of a text of plain data; nothing if all of it is in order. -/
def faultOf? (text : String) : Option Fault :=
  let document := State.runShallow ⟨[], none, text.toList⟩
  (document.root.fault? depthLimit).or document.trailingFault?

end ParseView.Json
