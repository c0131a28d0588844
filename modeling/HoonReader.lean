import HoonReader.Document
import HoonReader.Expression.Backtracking
import HoonReader.Expression.Spelling
import HoonReader.Lexeme
import HoonReader.Session
import HoonReader.Twig.Context
import HoonReader.Twig.Wide
import HoonReader.Wing.Spelling
import HoonReader.Proofs.Numerals
import HoonReader.Proofs.Printing
import HoonReader.Proofs.Appending
import HoonReader.Proofs.Spans
import HoonReader.Proofs.Splicing
import HoonReader.Proofs.Diagnosis
import HoonReader.Proofs.Limit
import HoonReader.Proofs.Trial
import HoonReader.Proofs.LineEndings
import HoonReader.Proofs.Comments
import HoonReader.Proofs.Tables
import HoonReader.Proofs.LongestGap
import HoonReader.Proofs.Preceding
import HoonReader.Proofs.Shortest
import HoonReader.Proofs.Cost
import HoonReader.Proofs.Lines
import HoonReader.Proofs.Wing
import HoonReader.Proofs.Registration
import HoonReader.Proofs.Folding
