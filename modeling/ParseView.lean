import ParseView.Config.Loader
import ParseView.Diagnostic.Codec
import ParseView.Files.Tree
import ParseView.Main
import ParseView.Module.Codec
import ParseView.Proofs.ClassMeaning
import ParseView.Proofs.EditInsert
import ParseView.Proofs.EditMargins
import ParseView.Proofs.EditRefusal
import ParseView.Proofs.MapTrace
import ParseView.Proofs.TreeRoundTrip
import ParseView.Tools.Run
import ParseView.Tree.Encode
import ParseView.View.Session
import ParseView.Proofs.EditLocality
import ParseView.Proofs.EditCommute
import ParseView.Proofs.EditFrame
import ParseView.Proofs.MapSegments
import ParseView.Proofs.NearestDouble
import ParseView.Proofs.TreeReencoding
import ParseView.Proofs.MapRenderings
import ParseView.Proofs.ProgramAcceptance
import ParseView.Proofs.ViewSession
import ParseView.Proofs.WireRecords
import ParseView.Proofs.EditUpdate
import ParseView.Proofs.AttributeChecks
import ParseView.Proofs.TableSource
import ParseView.Proofs.LineAnchors
import ParseView.Proofs.CaseFolding
import ParseView.Proofs.WrittenClass
import ParseView.Proofs.ShorthandMatching
import ParseView.Proofs.NumericText
import ParseView.Proofs.ConstantValues
import ParseView.Proofs.TokenRules
import ParseView.Proofs.SettingMerge
import ParseView.Proofs.EditChange
import ParseView.Proofs.LanguageChoice
import ParseView.Proofs.Discovery
import ParseView.Proofs.WalkOrder
import ParseView.Proofs.FlagText
import ParseView.Proofs.MapWords
import ParseView.Proofs.NumeralBytes
import ParseView.Proofs.RequestOrder
import ParseView.Proofs.LinePositions
import ParseView.Proofs.VlqCodes
