-- SUMMARY: The program: prints the demo graph.
import PixelGraph.Demo
import PixelGraph.Graph.Dump

open PixelGraph

def main : IO UInt32 := do
  match Demo.graph with
  | .ok g =>
    IO.print g.dump
    return 0
  | .error e =>
    IO.eprintln ("failed to build graph: " ++ e.message)
    return 1
