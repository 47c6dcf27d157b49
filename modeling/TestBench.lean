import TestBench.Config.Check
import TestBench.Service.Loopback
import TestBench.Service.Readiness
import TestBench.Proofs.Case.Components
import TestBench.Proofs.Config.KnownRecords
import TestBench.Proofs.Config.SelfMerge
import TestBench.Proofs.Diff.Canonical
import TestBench.Proofs.Net.Lookup
import TestBench.Proofs.Text.Pieces
import TestBench.Proofs.Net.AddressText
import TestBench.Proofs.Net.PrefixText
import TestBench.Proofs.Net.TableText
import TestBench.Proofs.Config.SubnetReading
import TestBench.Proofs.Config.SubnetMerge
import TestBench.Proofs.Config.Nulls
import TestBench.Proofs.Diff.SubnetDiff
import TestBench.Proofs.Diff.Selection
import TestBench.Proofs.Diff.Visibility
import TestBench.Proofs.Service.Retrying
import TestBench.Proofs.Case.Handles
import TestBench.Proofs.Service.Verdicts
import TestBench.Proofs.Config.Expectations
import TestBench.Proofs.Service.FirstLines
import TestBench.Proofs.Diff.Breadth
import TestBench.Proofs.Diff.GotSide
import TestBench.Proofs.Diff.Tracing
import TestBench.Proofs.Diff.Handed
import TestBench.Proofs.Diff.Documents
import TestBench.Proofs.Config.Repetition
import TestBench.Proofs.Diff.Reordering
import TestBench.Proofs.Diff.Places
import TestBench.Proofs.Diff.Marks
import TestBench.Proofs.Service.Endpoints
import TestBench.Proofs.Service.Deadline
import TestBench.Proofs.Net.PrefixForms
import TestBench.Proofs.Diff.Totality
import TestBench.Proofs.Diff.Times
import TestBench.Proofs.Net.Containment
import TestBench.Proofs.Diff.WholeNumbers
import TestBench.Proofs.Config.NumberTexts
