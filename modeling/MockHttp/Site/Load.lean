import MockHttp.Settings.Resolve
import MockHttp.Site.Document
import MockHttp.Site.Mount
/-!
# Loading a site

The route document that the settings name is read, decoded and mounted.  Each milestone is reported
once it is reached.
-/

namespace MockHttp

inductive StartError where
  | notLoaded (error : LoadError)
  | notMounted (error : MountError)

def StartError.message : StartError → String
  | .notLoaded error => "error decoding the server: " ++ error.message
  | .notMounted error => "error registering the routes: " ++ error.message

def SegmentTree.load (files : Files) (path : String) :
    Except LoadError SegmentTree × List Event :=
  match files.load path with
  | .error error => (.error error, [])
  | .ok content =>
      match SegmentTree.parse content with
      | .error error => (.error (.badDocument error), [])
      | .ok tree => (.ok tree, [.treeDecoded path tree.length])

def Site.load (files : Files) (settings : Settings) :
    Except (Failure StartError) Site × List Event :=
  let loading := Event.treeLoading settings.routeFile
  match SegmentTree.load files settings.routeFile with
  | (.error error, events) => (.error (.returned (.notLoaded error)), loading :: events)
  | (.ok tree, events) =>
      match Site.ofTree tree with
      | (.error failure, mounting) =>
          (.error (failure.map .notMounted), loading :: events ++ mounting)
      | (.ok site, mounting) =>
          (.ok site, loading :: events ++ mounting ++ [.siteReady site.size site.paths])

end MockHttp
