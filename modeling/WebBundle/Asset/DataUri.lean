import WebBundle.Path
import WebBundle.Text.Classes
import WebBundle.Text.Encoding

namespace WebBundle.Asset

/-- The lower-case form of an ASCII letter; other characters stay. -/
def lowerAscii (c : Char) : Char :=
  if 'A' ≤ c && c ≤ 'Z' then Char.ofNat (c.toNat + 32) else c

/-- The extension of a path with its ASCII letters in lower case, empty if there is none. -/
def lowerExtension (p : Path) : String :=
  String.ofList ((p.extension.getD []).map lowerAscii)

/-- The media types of the extensions that have one. -/
def mediaTypes : List (String × String) :=
  [("png", "image/png"), ("jpg", "image/jpeg"), ("jpeg", "image/jpeg"), ("gif", "image/gif"),
    ("svg", "image/svg+xml"), ("webp", "image/webp"), ("avif", "image/avif"), ("ico", "image/x-icon"),
    ("bmp", "image/bmp"), ("woff", "font/woff"), ("woff2", "font/woff2"), ("ttf", "font/ttf"),
    ("otf", "font/otf"), ("eot", "application/vnd.ms-fontobject"), ("mp4", "video/mp4"),
    ("webm", "video/webm"), ("mp3", "audio/mpeg"), ("wav", "audio/wav"), ("txt", "text/plain")]

/-- The media type of a file; of bytes in general if its extension tells none. -/
def mediaType (p : Path) : String :=
  (mediaTypes.lookup (lowerExtension p)).getD "application/octet-stream"

def dataUri (p : Path) (content : ByteArray) : String :=
  "data:" ++ mediaType p ++ ";base64," ++ Text.base64 content.data.toList

end WebBundle.Asset
