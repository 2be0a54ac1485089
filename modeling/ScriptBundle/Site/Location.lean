import ScriptBundle.Manifest
import ScriptBundle.Owner.Info
import ScriptBundle.Site.Parameters
/-!
# Where script sites load from

A site loads the script file it is given, or else the bundle of its owner. Bundles of libraries
lie in a directory of their package.
-/

namespace ScriptBundle

/-- What a host sets for all its script sites. It has to agree with how the bundles were built. -/
structure SiteSettings where
  /-- The directory of the bundles. -/
  outputDir : String := defaultOutputDir
  /-- The extension of script files. -/
  scriptExt : String := defaultScriptExt
  /-- The directory that libraries are served from. -/
  contentRoot : String := "_content"
  /-- Whether classes are written around scripts. -/
  classWrapping : Bool := false

/-- The settings that agree with how the project of a manifest is built. -/
def Manifest.siteSettings (m : Manifest) : SiteSettings where
  outputDir := m.outputDir
  scriptExt := m.scriptExt
  contentRoot := m.contentRoot
  classWrapping := m.classWrapping

/-- Whether an owner is needed to tell where to load from. -/
def SiteParameters.needsOwner (p : SiteParameters) : Bool := p.scriptFile.isNone

/-- The directory of an owner's package, or nothing for the application. -/
def SiteSettings.originRoot (s : SiteSettings) (o : OwnerInfo) : String :=
  if o.isFromLib then s.contentRoot ++ "/" ++ o.packageId ++ "/" else ""

/-- The path of the bundle of an owner. -/
def SiteSettings.bundlePath (s : SiteSettings) (p : SiteParameters) (o : OwnerInfo) : String :=
  "./" ++ s.originRoot o ++ s.outputDir ++ "/" ++
    bundleFileName (bundleKey p.globalBundle p.bundleName o.identity) s.scriptExt

/-- The path that a site loads from, unless it needs an owner and has none. -/
def SiteSettings.locate? (s : SiteSettings) (p : SiteParameters) (o : Option OwnerInfo) :
    Option String :=
  match p.scriptFile with
  | some f => some f
  | none => o.map (s.bundlePath p)

/-- The message if an owner is needed and there is none. -/
def missingOwnerMessage : String := "An owner is required to resolve a bundle path"

/-- The name of the class that the identifiers of a site belong to. -/
def SiteSettings.className (s : SiteSettings) (p : SiteParameters) (o : Option OwnerInfo) :
    Option String :=
  if s.classWrapping && p.asClass then
    match p.className with
    | some c => if c.isEmpty then o.map (ownerClassName ·.identity) else some c
    | none => o.map (ownerClassName ·.identity)
  else none

end ScriptBundle
