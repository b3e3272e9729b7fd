import SimpleC.CommandLine.Host
import SimpleC.Derivation.Diagram
import SimpleC.Text.LowerCase

/-!
# Drawings of derivations

A drawing is asked for by a path and a format. The format is looked at first;
then the DOT text is written to the path, with the directories around it. Turning
the text into a picture is left to the surroundings, which may fail at it.
-/

namespace SimpleC.CommandLine

/-- The formats of pictures, in alphabetical order. -/
def drawingFormats : List String :=
  ["bmp", "canon", "cgimage", "cmap", "cmapx", "cmapx_np", "dot", "dot_json", "eps", "exr",
    "fig", "gd", "gd2", "gif", "gtk", "gv", "ico", "imap", "imap_np", "ismap", "jp2", "jpe",
    "jpeg", "jpg", "json", "json0", "pct", "pdf", "pic", "pict", "plain", "plain-ext", "png",
    "pov", "ps", "ps2", "psd", "sgi", "svg", "svg_inline", "svgz", "tga", "tif", "tiff", "tk",
    "vml", "vmlz", "vrml", "wbmp", "webp", "x11", "xdot", "xdot1.2", "xdot1.4", "xdot_json",
    "xlib"]

/-- The reasons for which there is no drawing. -/
inductive DrawingError where
  | missingFormat
  | unknownFormat (format : String)
  | file (error : AccessError)
  /-- The surroundings made no picture, for the reason in the message. -/
  | picture (message : String)
  deriving DecidableEq

/-- The message that tells why there is no drawing. -/
def DrawingError.message : DrawingError → String
  | missingFormat => "\x27list\x27 object has no attribute \x27lower\x27"
  | unknownFormat format =>
      "unknown format: " ++ Text.quote format ++ " (must be one of [" ++
        String.intercalate ", " (drawingFormats.map Text.quote) ++ "])"
  | file error => error.message
  | picture message => message

/-- Writes the DOT text of a derivation and makes a picture of it. The answer is the
path of the picture, or why there is none. -/
def Host.draw {m : Type → Type} [Monad m] (host : Host m) (path : String)
    (format? : Option String) (title : String) (tree? : Option Node) :
    m (Except DrawingError String) := do
  let some format := format?.map Text.lowerCase
    | return .error .missingFormat
  if drawingFormats.contains format then
    match ← host.ensureParents path with
    | .error error => return .error (.file error)
    | .ok () =>
        match ← host.writeText path (derivationDiagram title tree?) with
        | .error error => return .error (.file error)
        | .ok () =>
            match ← host.makePicture path format with
            | .error message => return .error (.picture message)
            | .ok picture => return .ok picture
  else
    return .error (.unknownFormat format)

end SimpleC.CommandLine
