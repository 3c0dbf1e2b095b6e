import MusicLisp.Main
import MusicLisp.Prompt.Complete
import MusicLisp.Prompt.Highlight
import MusicLisp.Proofs.Evaluation.Depth
import MusicLisp.Proofs.Evaluation.Frames
import MusicLisp.Proofs.Evaluation.Layout
import MusicLisp.Proofs.Evaluation.Limit
import MusicLisp.Proofs.Evaluation.Machine
import MusicLisp.Proofs.Evaluation.Termination
import MusicLisp.Proofs.Evaluation.Resetting
import MusicLisp.Proofs.Form.Yield
import MusicLisp.Proofs.Form.Reading
import MusicLisp.Proofs.Number.Rounding
import MusicLisp.Proofs.Number.Shortest
import MusicLisp.Proofs.Number.Text
import MusicLisp.Proofs.Token.Partition
import MusicLisp.Proofs.Token.Strings
import MusicLisp.Proofs.Token.Pieces
import MusicLisp.Proofs.Form.Printing
import MusicLisp.Proofs.Form.Joining
import MusicLisp.Proofs.Evaluation.Lockstep
import MusicLisp.Proofs.Token.Places
import MusicLisp.Proofs.Form.Nodes
import MusicLisp.Proofs.Form.Brackets
import MusicLisp.Proofs.Form.Faults
import MusicLisp.Proofs.Prompt.Open
import MusicLisp.Proofs.Evaluation.Matching
import MusicLisp.Proofs.Evaluation.Joining
import MusicLisp.Proofs.Evaluation.Blame
import MusicLisp.Proofs.Form.LineBreak
import MusicLisp.Proofs.Prompt.Completion
import MusicLisp.Proofs.Token.Cutting
import MusicLisp.Proofs.Form.Slices
import MusicLisp.Proofs.Evaluation.Unmentioned
import MusicLisp.Proofs.Evaluation.Acts
import MusicLisp.Proofs.Evaluation.Records
import MusicLisp.Proofs.Native.Handles
import MusicLisp.Proofs.Evaluation.Handles
import MusicLisp.Proofs.Scopes.Heap
import MusicLisp.Proofs.Evaluation.Heap
import MusicLisp.Proofs.Evaluation.Requests
import MusicLisp.Proofs.Token.Blanks
import MusicLisp.Proofs.Form.Blanks
import MusicLisp.Proofs.Prompt.Ending
import MusicLisp.Proofs.Prompt.Lines
import MusicLisp.Proofs.Prompt.Script
import MusicLisp.Proofs.Prompt.Partners
import MusicLisp.Proofs.Native.Effects
import MusicLisp.Proofs.Evaluation.Sinks
import MusicLisp.Proofs.Form.EndMark
import MusicLisp.Proofs.Token.Quotes
import MusicLisp.Proofs.Token.Passing
import MusicLisp.Proofs.Token.Blocked
import MusicLisp.Proofs.Token.Literals
import MusicLisp.Proofs.Prompt.Colors
import MusicLisp.Proofs.Prompt.Drafts
import MusicLisp.Proofs.Evaluation.Names
import MusicLisp.Proofs.Prompt.Words
import MusicLisp.Proofs.Music.NoteNames
import MusicLisp.Proofs.Text.ByteOrder
import MusicLisp.Proofs.Dict.Entries
import MusicLisp.Proofs.Evaluation.MapLiterals
import MusicLisp.Proofs.Music.SynthParams
import MusicLisp.Proofs.Number.Equality
import MusicLisp.Proofs.Value.Equality
