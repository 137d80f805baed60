import QueryDigest.CommandLine.FileTree
import QueryDigest.Main
import QueryDigest.Proofs.Batch.Lines
import QueryDigest.Proofs.Batch.ReadFailures
import QueryDigest.Proofs.CommandLine.Sources
import QueryDigest.Proofs.Log.Delimiters
import QueryDigest.Proofs.Log.Interruptions
import QueryDigest.Proofs.Report.ReadingBack
import QueryDigest.Proofs.Statement.CapitalTables
import QueryDigest.Proofs.Statement.ClauseRounds
import QueryDigest.Proofs.Statement.CommaJoins
import QueryDigest.Proofs.Statement.DefinedLiterals
import QueryDigest.Proofs.Statement.DefinedObjects
import QueryDigest.Proofs.Statement.Fingerprints
import QueryDigest.Proofs.Statement.KeptComments
import QueryDigest.Proofs.Statement.LineComments
import QueryDigest.Proofs.Statement.ListedNames
import QueryDigest.Proofs.Statement.ListedTables
import QueryDigest.Proofs.Statement.LoadTargets
import QueryDigest.Proofs.Statement.LockedTables
import QueryDigest.Proofs.Statement.NumberedComments
import QueryDigest.Proofs.Statement.ObjectKinds
import QueryDigest.Proofs.Statement.PlainLiterals
import QueryDigest.Proofs.Statement.RenumberedFingerprints
import QueryDigest.Proofs.Statement.ScannedBytes
import QueryDigest.Proofs.Statement.ShowPatterns
import QueryDigest.Proofs.Statement.StablePhrases
import QueryDigest.Statement.Narration
