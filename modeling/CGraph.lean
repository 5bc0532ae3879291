import CGraph.Basic
import CGraph.StartSymbol
import CGraph.Dedup
import CGraph.Query
import CGraph.Writer
import CGraph.WriterRuns
import CGraph.ReaderHandle
import CGraph.Text
import CGraph.CommandLine
import CGraph.HyperedgeArg
import CGraph.EdgeList
import CGraph.Pipeline
import CGraph.Search
import CGraph.Arguments
import CGraph.Reading
