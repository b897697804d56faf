import CurlSnippet.Json.Print
import CurlSnippet.Snippet.Body

/-!
A Go program. A body value is printed as JSON text into a raw literal where it can stand in one;
raw literals hold neither backquotes nor carriage returns.
-/

namespace CurlSnippet.Snippet

namespace Go

def textPiece (t : Text) : Piece :=
  if t.contains (.scalar '\x60') || t.contains (.scalar '\r') then .literal t else .raw t

def bodyPiece (r : Request) (body : String) : Piece :=
  match r.jsonBody? body with
  | some v => textPiece (v.pretty 2)
  | none => .string body

def imports (r : Request) : Snippet :=
  .ofBlocks [
    [["import ("], ["\t\"fmt\""], ["\t\"io\""], ["\t\"net/http\""]],
    optional r.body fun _ => [["\t\"strings\""]],
    [[")"], []]]

def newRequest (r : Request) : Snippet :=
  match r.body with
  | some b => [
    ["\tbody := strings.NewReader(", bodyPiece r b, ")"],
    ["\treq, err := http.NewRequest(", .string r.method, ", url, body)"]]
  | none => [["\treq, err := http.NewRequest(", .string r.method, ", url, nil)"]]

def headers (r : Request) : Snippet :=
  .ofBlocks [
    r.headers.map fun h => ["\treq.Header.Set(", .string h.1, ", ", .string h.2, ")"],
    optional r.auth fun a =>
      [["\treq.SetBasicAuth(", .string a.user, ", ", .string a.password, ")"]],
    if r.headers.isEmpty && r.auth.isNone then [] else [[]]]

/-- The program gives up on any error. -/
def check : Snippet := [["\tif err != nil \x7b"], ["\t\tpanic(err)"], ["\t\x7d"]]

end Go

def go (r : Request) : Snippet :=
  .ofBlocks [
    [["package main"], []],
    Go.imports r,
    [["func main() \x7b"], ["\turl := ", .string r.url], []],
    Go.newRequest r,
    Go.check,
    [[]],
    Go.headers r,
    [["\tclient := &http.Client\x7b\x7d"], ["\tresp, err := client.Do(req)"]],
    Go.check,
    [["\tdefer resp.Body.Close()"], [], ["\trespBody, err := io.ReadAll(resp.Body)"]],
    Go.check,
    [["\tfmt.Println(string(respBody))"], ["\x7d"]]]

end CurlSnippet.Snippet
