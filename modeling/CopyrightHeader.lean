import CopyrightHeader.FileSystem.Files
import CopyrightHeader.Main
import CopyrightHeader.Proofs.HeaderScan
import CopyrightHeader.Text.Alphanumeric
import CopyrightHeader.Text.Whitespace
import CopyrightHeader.Proofs.Convergence
import CopyrightHeader.Proofs.Recovery
import CopyrightHeader.Proofs.RoundTrip
import CopyrightHeader.Proofs.FileContents
import CopyrightHeader.Proofs.PathResolution
import CopyrightHeader.Proofs.Sources
import CopyrightHeader.Proofs.Revision
import CopyrightHeader.Proofs.RunOutcome
import CopyrightHeader.Proofs.Agreement
import CopyrightHeader.Proofs.Repetition
import CopyrightHeader.Proofs.Reinvocation
import CopyrightHeader.Proofs.NameOrder
import CopyrightHeader.Proofs.WalkedFiles
import CopyrightHeader.Proofs.PhysicalLines
import CopyrightHeader.Proofs.HeaderParts
import CopyrightHeader.Proofs.Announcements
import CopyrightHeader.Proofs.Journal
import CopyrightHeader.Proofs.PathNames
import CopyrightHeader.Proofs.PathTrail
import CopyrightHeader.Proofs.Plan
import CopyrightHeader.Proofs.RootSpelling
import CopyrightHeader.Proofs.Unseen
import CopyrightHeader.Proofs.Noninterference
import CopyrightHeader.Proofs.LineEndings
import CopyrightHeader.Proofs.PathComponents
import CopyrightHeader.Proofs.ExcludedSubtrees
import CopyrightHeader.Proofs.UpdateOutcome
import CopyrightHeader.Proofs.KeyedEntries
import CopyrightHeader.Proofs.TomlKeys
import CopyrightHeader.Proofs.WritingOrder
import CopyrightHeader.Proofs.StylePrecedence
import CopyrightHeader.Proofs.Placeholders
import CopyrightHeader.Proofs.FileCounts
import CopyrightHeader.Proofs.DecidingSource
import CopyrightHeader.Proofs.AcceptedConfig
import CopyrightHeader.Proofs.Pruning
