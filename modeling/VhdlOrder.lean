import VhdlOrder.CommandLine.Main
import VhdlOrder.Elaboration.PragmaReport
import VhdlOrder.Proofs.Design.Region
import VhdlOrder.Proofs.Elaboration.Checks
import VhdlOrder.Proofs.Elaboration.Dependents
import VhdlOrder.Proofs.Elaboration.Imports
import VhdlOrder.Proofs.Elaboration.Plan
import VhdlOrder.Proofs.Lexical.Placement
import VhdlOrder.Proofs.Lexical.Rereading
import VhdlOrder.Proofs.Visibility.Located
import VhdlOrder.Proofs.Elaboration.LetterCase
import VhdlOrder.Proofs.Library.Tables
import VhdlOrder.Proofs.Name.Writing
import VhdlOrder.Proofs.CommandLine.Check
import VhdlOrder.Proofs.Elaboration.Linking
import VhdlOrder.Proofs.Visibility.Referred
import VhdlOrder.Proofs.Visibility.Trust
import VhdlOrder.Proofs.Graph.Threading
import VhdlOrder.Proofs.Library.FaultPlaces
import VhdlOrder.Proofs.Elaboration.Bounds
import VhdlOrder.Proofs.Library.ShortNames
import VhdlOrder.Proofs.Visibility.Ambiguity
import VhdlOrder.Proofs.Visibility.ProtectedTypes
import VhdlOrder.Proofs.Visibility.DeferredConstants
import VhdlOrder.Proofs.Visibility.MisplacedConstants
import VhdlOrder.Proofs.Visibility.InstanceChains
import VhdlOrder.Proofs.Graph.LeastOrder
import VhdlOrder.Proofs.Graph.Walks
import VhdlOrder.Proofs.Elaboration.Cycles
import VhdlOrder.Proofs.Elaboration.Neighbours
import VhdlOrder.Proofs.Lexical.Patterns
import VhdlOrder.Proofs.Lexical.Numerals
import VhdlOrder.Proofs.Lexical.Delimiters
import VhdlOrder.Proofs.Lexical.Resumption
import VhdlOrder.Proofs.Design.PartsInSequence
import VhdlOrder.Proofs.Design.InterfaceLists
import VhdlOrder.Proofs.Design.Occurrences
import VhdlOrder.Proofs.Lexical.IdentifierKeys
import VhdlOrder.Proofs.Settings.Layers
import VhdlOrder.Proofs.Graph.Twigs
import VhdlOrder.Proofs.Name.Pragmas
