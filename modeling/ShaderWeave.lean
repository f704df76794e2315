import ShaderWeave.Catalogue
import ShaderWeave.CompilerLog
import ShaderWeave.LexedFile
import ShaderWeave.Provider.Folder
import ShaderWeave.Provider.Memory
import ShaderWeave.Proofs.Expansion.Ledger
import ShaderWeave.Proofs.Expansion.Run
import ShaderWeave.Proofs.Expansion.Sharing
import ShaderWeave.Proofs.Expansion.Depth
import ShaderWeave.Proofs.Expansion.Folders
import ShaderWeave.Proofs.Expansion.Chain
import ShaderWeave.Proofs.Declaration.Grammar
import ShaderWeave.Proofs.Declaration.Reading
import ShaderWeave.Proofs.Weave.Marks
import ShaderWeave.Proofs.Weave.Building
import ShaderWeave.Proofs.Lexing.Cuts
import ShaderWeave.Proofs.CompilerLog.Relocation
import ShaderWeave.Proofs.Reader.Care
import ShaderWeave.Proofs.Reader.Laws
import ShaderWeave.Proofs.Reader.Writing
import ShaderWeave.Proofs.Reader.Excerpts
import ShaderWeave.Proofs.Reader.Tracing
import ShaderWeave.Proofs.Declaration.Copying
import ShaderWeave.Proofs.Declaration.Trimming
import ShaderWeave.Proofs.Lexing.Relexing
import ShaderWeave.Proofs.Scope.Zeroing
import ShaderWeave.Proofs.Expansion.Transcript
import ShaderWeave.Proofs.Expansion.Verbatim
import ShaderWeave.Proofs.Expansion.Origins
import ShaderWeave.Proofs.Expansion.Rereading
import ShaderWeave.Proofs.Expansion.Twins
import ShaderWeave.Proofs.Expansion.Inlining
import ShaderWeave.Proofs.Reader.Pairs
import ShaderWeave.Proofs.Scope.Names
import ShaderWeave.Proofs.Expansion.Lockstep
import ShaderWeave.Proofs.Expansion.Inheritance
import ShaderWeave.Proofs.Expansion.Locality
import ShaderWeave.Proofs.Expansion.Linking
import ShaderWeave.Proofs.Reader.Spacing
import ShaderWeave.Proofs.Expansion.Spacing
import ShaderWeave.Proofs.Scope.WellFormed
import ShaderWeave.Proofs.Declaration.WellFormed
import ShaderWeave.Proofs.Expansion.Stages
import ShaderWeave.Proofs.Expansion.WellFormed
import ShaderWeave.Proofs.Lexing.Mending
import ShaderWeave.Proofs.Reader.Reporting
import ShaderWeave.Proofs.Reader.InRange
import ShaderWeave.Proofs.Expansion.Refusals
import ShaderWeave.Proofs.Expansion.InRange
import ShaderWeave.Proofs.Expansion.Nesting
import ShaderWeave.Proofs.Expansion.Cycles
import ShaderWeave.Proofs.Expansion.Placement
import ShaderWeave.Proofs.Text.ByteOrder
import ShaderWeave.Proofs.Text.Slices
import ShaderWeave.Proofs.Lexing.Slicing
import ShaderWeave.Proofs.Lexing.Directives
import ShaderWeave.Proofs.Scope.Collisions
import ShaderWeave.Proofs.Expansion.Warnings
import ShaderWeave.Proofs.Expansion.Directives
import ShaderWeave.Proofs.Weave.Flattening
import ShaderWeave.Proofs.Declaration.Structs
import ShaderWeave.Proofs.Expansion.Declaring
import ShaderWeave.Proofs.Reader.Reach
import ShaderWeave.Proofs.Expansion.Recovery
import ShaderWeave.Proofs.Reader.Requests
import ShaderWeave.Proofs.Expansion.VertexShaders
import ShaderWeave.Proofs.Lexing.LongestMatch
import ShaderWeave.Proofs.Declaration.Numerals
import ShaderWeave.Proofs.Expansion.Numbers
import ShaderWeave.Proofs.Declaration.Initializers
import ShaderWeave.Proofs.Reader.Selecting
import ShaderWeave.Proofs.Expansion.Selection
import ShaderWeave.Proofs.Scope.Leaves
import ShaderWeave.Proofs.CompilerLog.LineBreaks
import ShaderWeave.Proofs.Expansion.Templates
import ShaderWeave.Proofs.Catalogue.Partition
import ShaderWeave.Proofs.Path.Naming
import ShaderWeave.Proofs.Expansion.Roots
import ShaderWeave.Proofs.Reader.Progress
import ShaderWeave.Proofs.Expansion.Progress
import ShaderWeave.Proofs.Reader.Foresight
import ShaderWeave.Proofs.Expansion.Foresight
