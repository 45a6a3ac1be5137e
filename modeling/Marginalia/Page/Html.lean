import Marginalia.Page.View
import Marginalia.Weave

/-!
# The page

A document is shown as one page: a sidebar with the table of contents, whose lines link to the
anchors of the document, and a section for each file, whose cards stand in a table with comments on
the left and code on the right. Everything is escaped except the fields that hold rendered markup.
-/
namespace Marginalia.Page

def escapeChar (c : Char) : Text :=
  if c = '\x00' then "\uFFFD"
  else if c = '"' then "&#34;"
  else if c = '&' then "&amp;"
  else if c = '\'' then "&#39;"
  else if c = '+' then "&#43;"
  else if c = '<' then "&lt;"
  else if c = '>' then "&gt;"
  else [c]

def escape (t : Text) : Text := t.flatMap escapeChar

/-- The written form of a slug behind the number sign of a link. -/
def fragment (slug : Text) : Text :=
  Percent.escape Percent.lowerDigits Percent.isLinkPlain (Utf8.encode slug)

/-- Lines of a fixed part of the page. -/
def lines (ls : List String) : Text := ls.flatMap fun l => l.toList ++ ['\n']

def head : Text :=
  lines [
    "<!DOCTYPE html>",
    "<html lang=\"en\">",
    "<head>",
    "  <meta charset=\"utf-8\">",
    "  <meta name=\"viewport\" content=\"width=device-width, initial-scale=1\">",
    "  <meta name=\"generator\" content=\"solcco\">"] ++ "  <title>"

/-- The rules of the page's own style in front of those of heading levels. -/
def styleStart : Text :=
  lines [
    "    body \x7b margin: 0; font-family: -apple-system, \"Segoe UI\", Helvetica, Arial, sans-serif; font-size: 15px; color: #24292f; \x7d",
    "    nav.toc \x7b position: fixed; top: 0; bottom: 0; left: 0; width: 260px; overflow-y: auto; padding: 16px; box-sizing: border-box; border-right: 1px solid #d0d7de; background: #f6f8fa; \x7d",
    "    nav.toc h1 \x7b font-size: 16px; margin: 0 0 12px; \x7d",
    "    nav.toc ul \x7b list-style: none; margin: 0; padding: 0; \x7d",
    "    nav.toc a \x7b color: inherit; text-decoration: none; display: block; padding: 2px 0; \x7d",
    "    nav.toc a:hover \x7b text-decoration: underline; \x7d",
    "    nav.toc .toc-file \x7b font-weight: 600; margin-top: 10px; \x7d"]

/-- The indentation of a heading level in the sidebar. -/
def levelRule (level : Nat) : Text :=
  "    nav.toc .toc-h" ++ Text.ofNat level ++ " \x7b padding-left: " ++ Text.ofNat (level * 12)
    ++ "px; \x7d\n"

/-- The rules of the page's own style behind those of heading levels. -/
def styleEnd : Text :=
  lines [
    "    main \x7b margin-left: 260px; \x7d",
    "    section.file > h2.file-name \x7b margin: 0; padding: 12px 16px; background: #24292f; color: #fff; font-family: ui-monospace, Menlo, monospace; font-size: 14px; \x7d",
    "    table.packs \x7b border-collapse: collapse; width: 100%; table-layout: fixed; \x7d",
    "    td.comments \x7b width: 40%; vertical-align: top; padding: 8px 16px; border-bottom: 1px solid #eaeef2; \x7d",
    "    td.code \x7b vertical-align: top; padding: 8px 0; background: #fafbfc; border-bottom: 1px solid #eaeef2; \x7d",
    "    td.code .panel \x7b display: flex; \x7d",
    "    pre.gutter \x7b margin: 0; padding: 0 8px; text-align: right; color: #8c959f; user-select: none; border-right: 1px solid #eaeef2; \x7d",
    "    pre.chroma \x7b margin: 0; padding: 0 12px; overflow-x: auto; background: transparent; \x7d",
    "    pre \x7b font-family: ui-monospace, Menlo, monospace; font-size: 13px; line-height: 1.45; \x7d"]

def contentsLine (e : Entry) : Text :=
  "\n      <li class=\"toc-" ++ escape e.tag ++ "\"><a href=\"#" ++ fragment e.slug ++ "\">"
    ++ escape e.title ++ "</a></li>"

def panel (c : FinishedCard) : Text :=
  if c.hasCode then
    "\n            <div class=\"panel\"><pre class=\"gutter\">" ++ escape c.gutter
      ++ "</pre><pre class=\"chroma\"><code>" ++ c.codeHtml ++ "</code></pre></div>"
  else []

def row (c : FinishedCard) : Text :=
  "\n        <tr>\n          <td class=\"comments\">" ++ c.blockCommentHtml ++ c.lineCommentHtml
    ++ "\n          </td>\n          <td class=\"code\">" ++ panel c
    ++ "\n          </td>\n        </tr>"

def fileSection (f : WovenFile) : Text :=
  "\n    <section class=\"file\" id=\"" ++ escape f.fileSlug
    ++ "\">\n      <h2 class=\"file-name\">" ++ escape f.file
    ++ "</h2>\n      <table class=\"packs\">" ++ f.cards.flatMap row
    ++ "\n      </table>\n    </section>"

/-- The page of a document with the style sheet of its code. -/
def render (title : Text) (d : Document) (sheet : Text := Highlight.styleSheet d.style) : Text :=
  head ++ escape title ++ "</title>\n  <style>\n" ++ styleStart
    ++ (List.range 6).flatMap (fun k => levelRule (k + 1)) ++ styleEnd
    ++ sheet
    ++ "\n  </style>\n</head>\n<body>\n  <nav class=\"toc\">\n    <h1>" ++ escape title
    ++ "</h1>\n    <ul>" ++ d.contents.flatMap contentsLine
    ++ "\n    </ul>\n  </nav>\n  <main>" ++ d.files.flatMap fileSection
    ++ "\n  </main>\n</body>\n</html>\n"

end Marginalia.Page
