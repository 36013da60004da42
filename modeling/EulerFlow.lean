import EulerFlow.Main
import EulerFlow.Table.Limited
import EulerFlow.Model.TextModel
import EulerFlow.Proofs.ParseExact
import EulerFlow.Proofs.RunOrbit
import EulerFlow.Proofs.EvalFailure
import EulerFlow.Proofs.DefinedVariables
import EulerFlow.Proofs.Updates
import EulerFlow.Proofs.Tape
import EulerFlow.Proofs.Policies
import EulerFlow.Proofs.TableText
import EulerFlow.Proofs.Receivers
import EulerFlow.Proofs.UnsignedFloat
import EulerFlow.Proofs.Encoding
import EulerFlow.Proofs.Literal
import EulerFlow.Proofs.Spelling
import EulerFlow.Proofs.Rendering
import EulerFlow.Proofs.FewestWords
import EulerFlow.Proofs.PrintParse
import EulerFlow.Proofs.Height
import EulerFlow.Proofs.Agreement
import EulerFlow.Proofs.Shadow
import EulerFlow.Proofs.Subsystem
import EulerFlow.Proofs.Exchange
import EulerFlow.Proofs.Clock
import EulerFlow.Proofs.SetUp
import EulerFlow.Proofs.Drivers
import EulerFlow.Proofs.Frame
import EulerFlow.Proofs.Session
import EulerFlow.Proofs.Building
import EulerFlow.Proofs.Rounding
import EulerFlow.Proofs.NearestDouble
import EulerFlow.Proofs.WrittenNumber
import EulerFlow.Proofs.TableReading
import EulerFlow.Proofs.Renaming
import EulerFlow.Proofs.FirstWrongToken
import EulerFlow.Proofs.Horizon
import EulerFlow.Proofs.FinishedRun
import EulerFlow.Proofs.Simultaneous
import EulerFlow.Proofs.FailedStep
import EulerFlow.Proofs.Warnings
import EulerFlow.Proofs.ReportedTimes
import EulerFlow.Proofs.Absorbing
import EulerFlow.Proofs.Rectangular
import EulerFlow.Proofs.Phases
import EulerFlow.Proofs.FirstFault
import EulerFlow.Proofs.BlankCut
import EulerFlow.Proofs.Layout
import EulerFlow.Proofs.ExactCount
import EulerFlow.Proofs.Registration
import EulerFlow.Proofs.Leaves
import EulerFlow.Proofs.History
import EulerFlow.Proofs.DescentRun
