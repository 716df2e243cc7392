import Rio.BlockGraph.Basic
import Rio.BlockGraph.Build
import Rio.Bytecode.Decode
import Rio.Bytecode.Instruction
import Rio.Bytecode.Layout
import Rio.Bytecode.Listing
import Rio.Bytecode.Mnemonic
import Rio.Bytecode.Table
import Rio.Bytecode.Transition
import Rio.Charset.Basic
import Rio.Charset.Decode
import Rio.Charset.ShiftJis
import Rio.Charset.ShiftJis.Rows
import Rio.Charset.SingleByte
import Rio.Charset.Utf16
import Rio.Charset.Utf8
import Rio.CommandLine.Disk
import Rio.CommandLine.Options
import Rio.CommandLine.Session
import Rio.Companion
import Rio.Embedding
import Rio.Json.Basic
import Rio.Json.Reader
import Rio.Literal.Dialogue
import Rio.Literal.Quoted
import Rio.Literal.SingleQuoted
import Rio.Main
import Rio.Numeral.Decimal
import Rio.Numeral.Hex
import Rio.Numeral.Shortest
import Rio.Profile.Access
import Rio.Profile.Basic
import Rio.Profile.Load
import Rio.Renpy.Atl
import Rio.Renpy.Document
import Rio.Renpy.Label
import Rio.Renpy.Remark
import Rio.Renpy.Statement
import Rio.Report
import Rio.Screenplay.Animation
import Rio.Screenplay.Assignment
import Rio.Screenplay.Command
import Rio.Screenplay.Dialogue
import Rio.Screenplay.Flow
import Rio.Screenplay.Run
import Rio.Screenplay.Scenery
import Rio.Screenplay.Sound
import Rio.Screenplay.State
import Rio.Screenplay.Transition
import Rio.Stage.Basic
import Rio.Stage.Picture
import Rio.Stage.Slot
import Rio.Transpile
import Rio.Unicode.Case
import Rio.Unicode.CaseIgnorable
import Rio.Unicode.CaseMap
import Rio.Unicode.Cased
import Rio.Unicode.GraphemeExtend
import Rio.Unicode.Printable
import Rio.Unicode.Ranges
import Rio.Unicode.Surrogate
import Rio.Proofs.Bytecode.Accounting
import Rio.Proofs.Bytecode.Addresses
import Rio.Proofs.Bytecode.Grammar
import Rio.Proofs.Bytecode.Invariance
import Rio.Proofs.Bytecode.Padding
import Rio.Proofs.Bytecode.RoundTrip
import Rio.Proofs.BlockGraph.Outline
import Rio.Proofs.BlockGraph.Predecessors
import Rio.Proofs.BlockGraph.Tiles
import Rio.Proofs.BlockGraph.Tiling
import Rio.Proofs.BlockGraph.Leaders
import Rio.Proofs.Bytecode.Operands
import Rio.Proofs.Observation
import Rio.Proofs.Renpy.Playback
import Rio.Proofs.Screenplay.Frame
import Rio.Proofs.Screenplay.ControlFlow
import Rio.Proofs.Screenplay.Acts
import Rio.Proofs.Screenplay.Reading
import Rio.Proofs.Stage.Places
import Rio.Proofs.Screenplay.Faults
import Rio.Proofs.BlockGraph.Jumps
import Rio.Proofs.Screenplay.Labels
import Rio.Proofs.Renpy.Screen
import Rio.Proofs.Stage.Tracking
import Rio.Proofs.Screenplay.Display
import Rio.Proofs.Renpy.Indentation
import Rio.Proofs.Screenplay.Blocks
import Rio.Proofs.Screenplay.Guards
import Rio.Proofs.Renpy.Ways
import Rio.Proofs.Screenplay.SkipGuards
import Rio.Proofs.Unicode.Upper
import Rio.Proofs.Screenplay.SkipEnds
import Rio.Proofs.Screenplay.Memory
import Rio.Proofs.Screenplay.Flushed
import Rio.Proofs.Screenplay.Utterances
import Rio.Proofs.Screenplay.Pauses
import Rio.Proofs.Screenplay.Menus
import Rio.Proofs.Screenplay.GuardedLines
import Rio.Proofs.BlockGraph.Queries
import Rio.Proofs.Screenplay.Scopes
import Rio.Proofs.Screenplay.FlagUse
import Rio.Proofs.Screenplay.KeyFrames
import Rio.Proofs.Literal.Escaping
import Rio.Proofs.Literal.Quoting
import Rio.Proofs.Screenplay.Quotation
import Rio.Proofs.Screenplay.Doubts
import Rio.Proofs.Stage.Timelines
import Rio.Proofs.Screenplay.Segments
import Rio.Proofs.Screenplay.Effects
import Rio.Proofs.Screenplay.Listings
import Rio.Proofs.Literal.SingleQuoting
import Rio.Proofs.Literal.Words
import Rio.Proofs.Bytecode.Listing
import Rio.Proofs.Screenplay.CommentLines
import Rio.Proofs.Renpy.History
import Rio.Proofs.CommandLine.Outputs
import Rio.Proofs.Profile.Flags
import Rio.Proofs.Stage.CleanPictures
