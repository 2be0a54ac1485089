import ScriptBundle.CommandLine.Run
import ScriptBundle.LogLevel
import ScriptBundle.Main
import ScriptBundle.Proofs.Agreement
import ScriptBundle.Proofs.Site.ImportOnce
import ScriptBundle.Proofs.Site.OnlyForward
import ScriptBundle.Proofs.Site.ReleaseOnce
import ScriptBundle.Site.Run
import ScriptBundle.Proofs.Site.Waiting
import ScriptBundle.Proofs.Site.Silence
import ScriptBundle.Proofs.Site.Line
import ScriptBundle.Proofs.Site.Tidy
import ScriptBundle.Proofs.Site.ReleaseLast
import ScriptBundle.Proofs.Site.HandBack
import ScriptBundle.Proofs.Site.Retrying
import ScriptBundle.Proofs.Site.Closing
import ScriptBundle.Proofs.Contents
import ScriptBundle.Proofs.Inspection
import ScriptBundle.Proofs.Leftovers
import ScriptBundle.Proofs.Omission
import ScriptBundle.Proofs.Rebuilding
import ScriptBundle.Proofs.Reordering
import ScriptBundle.Proofs.SharedTexts
import ScriptBundle.Proofs.Unwrapping
import ScriptBundle.Proofs.Site.Assigning
import ScriptBundle.Proofs.Site.Rendering
import ScriptBundle.Proofs.Settings
import ScriptBundle.Proofs.Sources
import ScriptBundle.Proofs.Keys
import ScriptBundle.Proofs.Classes
import ScriptBundle.Proofs.Banners
import ScriptBundle.Proofs.Owner.Lookups
import ScriptBundle.Proofs.Binding
import ScriptBundle.Proofs.ListForm
import ScriptBundle.Proofs.Printing
import ScriptBundle.Proofs.SafeExtraction
import ScriptBundle.Proofs.TypeNames
