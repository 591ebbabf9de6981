import NetworkFileServer.Framework.ReTemplate
import NetworkFileServer.Framework.Text
import NetworkFileServer.Tunnel.WsPayload

/-!
# Rewriting the asset paths of HTML

`relay/app/services/html_rewriter.py`. The codecs of Python are a parameter; the model distinguishes the exceptions
that they raise where the source does.
-/

namespace NetworkFileServer.Relay

open NetworkFileServer.Tunnel (Bytes)

def htmlRewriteMaxBytes : Nat := 5 * 1024 * 1024

/-- What the group of `_ASSET_PATH_RE` matches. -/
def openers : List (List Char) :=
  ["src=\"".toList, "src='".toList, "href=\"".toList, "href='".toList]

/-- `_ASSET_PATH_RE` at the head of a text, with its group 1: an opener and a slash that no `m/` follows. -/
def matchAsset (text : List Char) : Option (List Char) :=
  openers.find? fun opener => (opener ++ ['/']).isPrefixOf text && !(opener ++ ['/', 'm', '/']).isPrefixOf text

/-- The groups of the pattern at a match of an opener. -/
def matchGroup (opener : List Char) : Nat → List Char
  | 0 => opener ++ ['/']
  | _ => opener

/-- The scan of `_ASSET_PATH_RE.sub`, behind the rest of a match that was replaced. -/
def subScan (replacement : List Char → List Char) : Nat → List Char → List Char
  | _, [] => []
  | skip + 1, _ :: cs => subScan replacement skip cs
  | 0, c :: cs =>
      match matchAsset (c :: cs) with
      | some opener => replacement opener ++ subScan replacement opener.length cs
      | none => c :: subScan replacement 0 cs

/-- The template `\1{mount_prefix}/`. -/
def assetTemplate (mountPrefix : String) : List Char := '\\' :: '1' :: mountPrefix.toList ++ ['/']

variable (groupNumber : List Char → Option Nat)

/-- `rewrite_html_asset_paths`. The template is read before the text is. -/
def rewriteHtmlAssetPaths (html mountPrefix : String) : Except ReTemplate.Error String :=
  (ReTemplate.parseTemplate groupNumber 1 (assetTemplate mountPrefix)).map fun items =>
    String.ofList (subScan (fun opener => ReTemplate.expand (matchGroup opener) items) 0 html.toList)

/-- A letter of `charset=`, without regard to case; the long s is another lower case of S. -/
def sameLetter (letter c : Char) : Bool := Text.lowerChar c = letter || (letter = 's' && c = 'ſ')

/-- `charset=([^\s;]+)` at the head of a text. -/
def matchCharset (text : List Char) : Option (List Char) :=
  let value := (text.drop 8).takeWhile fun c => !Text.isSpace c && c ≠ ';'
  if (text.take 8).length = 8 ∧ (List.zipWith sameLetter "charset=".toList text).all id ∧ value ≠ [] then some value
  else none

/-- `_CHARSET_RE.search` -/
def searchCharset : List Char → Option (List Char)
  | [] => none
  | c :: cs => (matchCharset (c :: cs)).or (searchCharset cs)

/-- `charset_from_content_type`. `lower` is that of Latin-1, beyond which no codec has a name. -/
def charsetFromContentType (contentType : String) : String :=
  match searchCharset contentType.toList with
  | none => "utf-8"
  | some value => Text.lower (Text.stripChars ['"', '\''] (String.ofList value))

inductive CodecError where
  | unicodeDecodeError
  | unicodeEncodeError
  /-- A `UnicodeError` that is neither. -/
  | unicodeError
  | lookupError
  /-- Another `ValueError`. -/
  | valueError
deriving DecidableEq

/-- `bytes.decode` and `str.encode`, for each name of an encoding. -/
structure Codecs where
  decode : String → Bytes → Except CodecError String
  encode : String → String → Except CodecError Bytes

inductive RewriteError where
  | template (error : ReTemplate.Error)
  | codec (error : CodecError)

/-- `except (UnicodeDecodeError, LookupError)` -/
def CodecError.isCaught : CodecError → Bool
  | .unicodeDecodeError | .lookupError => true
  | .unicodeEncodeError | .unicodeError | .valueError => false

def rewriteHtmlBody (codecs : Codecs) (body : Bytes) (contentType mountPrefix : String) :
    Except RewriteError Bytes :=
  if body.length > htmlRewriteMaxBytes then .ok body
  else
    let charset := charsetFromContentType contentType
    match codecs.decode charset body with
    | .error e => if e.isCaught then .ok body else .error (.codec e)
    | .ok text =>
        match rewriteHtmlAssetPaths groupNumber text mountPrefix with
        | .error e => .error (.template e)
        | .ok rewritten => (codecs.encode charset rewritten).mapError .codec

end NetworkFileServer.Relay
