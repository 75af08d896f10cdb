import SyntaxArena.Proofs.Declarators
import SyntaxArena.Proofs.Discipline
import SyntaxArena.Proofs.Failures
import SyntaxArena.Proofs.Hull
import SyntaxArena.Proofs.Interleaving
import SyntaxArena.Proofs.Lookalikes
import SyntaxArena.Proofs.OperationLog
import SyntaxArena.Proofs.OutlineReading
import SyntaxArena.Proofs.Persistence
import SyntaxArena.Proofs.Preorder
import SyntaxArena.Proofs.ReadBack
import SyntaxArena.Proofs.Relocation
import SyntaxArena.Proofs.Reset
import SyntaxArena.Proofs.Sharing
import SyntaxArena.Proofs.SourceOrder
import SyntaxArena.Proofs.TypeRun
import SyntaxArena.Proofs.VersionGrammar
import SyntaxArena.Session
