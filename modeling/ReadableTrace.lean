import ReadableTrace.Main
import ReadableTrace.Snapshot.Printer
import ReadableTrace.Proofs.Name.Grammar
import ReadableTrace.Proofs.Spelling.Composition
import ReadableTrace.Proofs.Spelling.Cycles
import ReadableTrace.Proofs.Spelling.Definitions
import ReadableTrace.Proofs.Spelling.Tree
import ReadableTrace.Proofs.Spelling.Grounded
import ReadableTrace.Proofs.Spelling.Growth
import ReadableTrace.Proofs.Frame.AsyncMethod
import ReadableTrace.Proofs.Frame.Growth
import ReadableTrace.Proofs.Trace.Growth
import ReadableTrace.Proofs.Trace.Location
import ReadableTrace.Proofs.Trace.Shown
import ReadableTrace.Proofs.Trace.Renumbering
import ReadableTrace.Proofs.Snapshot.RoundTrip
import ReadableTrace.Proofs.Catalog.Methods
import ReadableTrace.Proofs.Frame.AsyncOwner
import ReadableTrace.Proofs.Log.Warning
import ReadableTrace.Proofs.Spelling.Warning
import ReadableTrace.Proofs.Frame.Warning
import ReadableTrace.Proofs.Trace.Records
import ReadableTrace.Proofs.Log.Run
import ReadableTrace.Proofs.Log.Events
import ReadableTrace.Proofs.Trace.Verbosity
import ReadableTrace.Proofs.Catalog.Additions
import ReadableTrace.Proofs.CommandLine.Rendering
import ReadableTrace.Proofs.Snapshot.Handwritten
import ReadableTrace.Proofs.Settings.Store
import ReadableTrace.Proofs.Frame.FieldSearch
import ReadableTrace.Proofs.Spelling.Arity
import ReadableTrace.Proofs.Frame.Constructor
import ReadableTrace.Proofs.Frame.LocalFunction
import ReadableTrace.Proofs.Frame.Choice
import ReadableTrace.Proofs.Spelling.Parameter
import ReadableTrace.Proofs.Spelling.ByRef
import ReadableTrace.Proofs.Settings.Atomic
import ReadableTrace.Proofs.Trace.Lines
import ReadableTrace.Proofs.Frame.Moved
import ReadableTrace.Proofs.Frame.Nameless
import ReadableTrace.Proofs.Spelling.Interning
import ReadableTrace.Proofs.Spelling.Visits
