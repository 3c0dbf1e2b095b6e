import MusicLisp.Value

/-!
# Scopes

Names are bound in frames. A frame may be enclosed in an outer one, and what is not bound in it is
looked up there. Frames are numbered in the order they are made and are never given up, since a
function may hold on to the frame it was made in.

* `chain`: a frame and those around it, from the inside out. An outer frame is made before the frame
  it encloses, so a chain only goes down in number.
* `lookup`, `has`, `names`: what a frame sees of its chain.
-/

namespace MusicLisp

/-- Bindings by name, and the frame around them. -/
structure Frame where
  outer : Option FrameId
  bindings : Dict Value
deriving Inhabited

/-- All frames made so far. -/
structure Scopes where
  frames : Array Frame
deriving Inhabited

namespace Scopes

/-- No frames. -/
def empty : Scopes := ⟨#[]⟩

/-- The number of the next frame to be made. -/
def next (s : Scopes) : FrameId := s.frames.size

/-- Makes a frame. -/
def push (frame : Frame) (s : Scopes) : Scopes := ⟨s.frames.push frame⟩

/-- Makes a frame of its own, with no bindings. -/
def pushRoot (s : Scopes) : Scopes := s.push ⟨none, []⟩

/-- Makes a frame with these bindings inside another. -/
def enclose (outer : FrameId) (bindings : Dict Value) (s : Scopes) : Scopes :=
  s.push ⟨some outer, bindings⟩

/-- Binds a name in a frame, in place of what the name stood for there. -/
def bind (frame : FrameId) (name : String) (value : Value) (s : Scopes) : Scopes :=
  ⟨s.frames.modify frame fun f => { f with bindings := f.bindings.insert name value }⟩

/-- A frame and those around it, from the inside out. -/
def chain (s : Scopes) (id : FrameId) : List Frame :=
  match s.frames[id]? with
  | none => []
  | some frame =>
    match frame.outer with
    | none => [frame]
    | some outer => if outer < id then frame :: s.chain outer else [frame]
termination_by id

/-- What a name stands for in a frame: its binding in the nearest frame that has one. -/
def lookup (s : Scopes) (id : FrameId) (name : String) : Option Value :=
  (s.chain id).findSome? fun frame => Dict.get? name frame.bindings

/-- Whether a name is bound in a frame or around it. -/
def has (s : Scopes) (id : FrameId) (name : String) : Bool :=
  (s.chain id).any fun frame => frame.bindings.any fun entry => entry.1 == name

/-- The names bound in a frame or around it, in increasing order, each once. -/
def names (s : Scopes) (id : FrameId) : List String :=
  let bound := (s.chain id).flatMap fun frame => frame.bindings.names
  (Dict.ofEntries (bound.map fun name => (name, ()))).names

end Scopes

end MusicLisp
